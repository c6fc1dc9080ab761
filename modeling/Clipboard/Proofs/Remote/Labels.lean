import Clipboard.Proofs.Decimal.Missing
import Clipboard.Proofs.Decimal.Order
import Clipboard.Proofs.Remote.Reply

/-!
The labels that are taken from a reply. Their confidence is a share of one, unless the reply gives the missing
number: no bound holds that back.
-/

namespace Clipboard.Remote

open Decimal (NamesMissing)
open Fallible

/-- The confidence in the reply is the missing number, as a number or as a text. -/
def Reply.IsUnsure (r : Reply) : Prop :=
  match Json.lookup? "confidence" r.fields with
  | some (.real x) => x.isNaN
  | some (.text s) => NamesMissing s.toList
  | _ => False

namespace Labeller

/-! ## Confidence -/

theorem isNaN_clamped (x : Float) : (clamped x).isNaN = x.isNaN := by
  unfold clamped
  by_cases hlow : x < 0.0
  · have hx := (Decimal.not_isNaN_of_lt hlow).1
    rw [if_pos hlow, if_neg (by decide +kernel), Bool.eq_false_iff.mpr hx]
    decide +kernel
  · rw [if_neg hlow]
    by_cases hhigh : 1.0 < x
    · have hx := (Decimal.not_isNaN_of_lt hhigh).2
      rw [if_pos hhigh, Bool.eq_false_iff.mpr hx]
      decide +kernel
    · rw [if_neg hhigh]

theorem clamped_mem {x : Float} (h : ¬x.isNaN) : 0.0 ≤ clamped x ∧ clamped x ≤ 1.0 := by
  unfold clamped
  by_cases hlow : x < 0.0
  · rw [if_pos hlow, if_neg (by decide +kernel)]
    decide +kernel
  · rw [if_neg hlow]
    by_cases hhigh : 1.0 < x
    · rw [if_pos hhigh]
      decide +kernel
    · rw [if_neg hhigh]
      exact ⟨Decimal.le_of_not_lt h (by decide +kernel) hlow,
        Decimal.le_of_not_lt (by decide +kernel) h hhigh⟩

theorem clamped_of_mem {x : Float} (hlow : 0.0 ≤ x) (hhigh : x ≤ 1.0) : clamped x = x := by
  unfold clamped
  rw [if_neg (Decimal.not_lt_of_le hlow), if_neg (Decimal.not_lt_of_le hhigh)]

theorem isNaN_statedConfidence_iff {r : Reply} {x : Float}
    (h : statedConfidence (Json.lookup? "confidence" r.fields) = .ok x) : x.isNaN ↔ r.IsUnsure := by
  have hhalf : ¬(0.5 : Float).isNaN := by decide +kernel
  unfold Reply.IsUnsure
  generalize Json.lookup? "confidence" r.fields = v at h ⊢
  match v, h with
  | none, h => cases h; exact iff_of_false hhalf id
  | some .null, h => cases h; exact iff_of_false hhalf id
  | some (.bool b), h =>
      cases h
      cases b
      · exact iff_of_false (by decide +kernel) id
      · exact iff_of_false (by decide +kernel) id
  | some (.int n), h =>
      simp only [statedConfidence] at h
      split at h
      · rename_i y hy
        cases h
        exact iff_of_false (Bool.eq_false_iff.mp (Decimal.isNaN_ofInt? hy)) id
      · cases h
  | some (.real y), h => cases h; exact Iff.rfl
  | some (.text s), h =>
      cases h
      cases hread : Decimal.readReal? s.toList with
      | some y => exact Decimal.isNaN_readReal?_iff hread
      | none =>
          refine iff_of_false hhalf fun hname => ?_
          simpa [hread] using hname.isSome_readReal?
  | some (.torn ps), h => cases h; exact iff_of_false hhalf id
  | some (.list xs), h => cases h; exact iff_of_false hhalf id
  | some (.object fields), h => cases h; exact iff_of_false hhalf id

theorem confidence_of_labelsOf {fields : List (String × Json)} {labels : Labels}
    (h : labelsOf fields = .ok labels) : ∃ x,
      statedConfidence (Json.lookup? "confidence" fields) = .ok x ∧ labels.confidence = clamped x := by
  unfold labelsOf at h
  split at h
  · dsimp only at h
    split at h
    · cases h
    · obtain ⟨x, hx, hlabels⟩ := bind_eq_ok_iff.mp h
      cases hlabels
      exact ⟨x, hx, rfl⟩
  · cases h

/-! ## Labels -/

/-- The labels are the texts in the list of the reply, of which one is not blank. Their confidence is a number
from 0 to 1, the one that is stated if that is such a number; but if the missing number is stated, it is
the missing number. -/
theorem labels_of_label {o : Outside} {l : Labeller} {text : String} {t : Transcript} {labels : Labels}
    (h : ((l.label o text).run t).1 = .ok labels) :
    labels.tags = (l.replyTo o text t).tags ∧ (∃ tag ∈ labels.tags, ¬Text.isBlank tag.toList) ∧
      (0.0 ≤ labels.confidence ∧ labels.confidence ≤ 1.0 ↔ ¬(l.replyTo o text t).IsUnsure) ∧
      (labels.confidence.isNaN ↔ (l.replyTo o text t).IsUnsure) ∧
      ∀ x, statedConfidence (Json.lookup? "confidence" (l.replyTo o text t).fields) = .ok x →
        0.0 ≤ x → x ≤ 1.0 → labels.confidence = x := by
  have htags := tags_of_label h
  have htakes := (label_succeeds_iff o l text t).mp ⟨labels, h⟩
  obtain ⟨x, hx, hconfidence⟩ := confidence_of_labelsOf (labelsOf_of_label h)
  have hunsure := isNaN_statedConfidence_iff hx
  rw [hconfidence, ← hunsure, isNaN_clamped]
  refine ⟨htags, htags ▸ htakes.tag, ⟨fun hmem => ?_, clamped_mem⟩, Iff.rfl, ?_⟩
  · rw [← isNaN_clamped x]
    exact (Decimal.not_isNaN_of_le hmem.1).2
  · intro y hy hlow hhigh
    cases hx.symm.trans hy
    exact clamped_of_mem hlow hhigh

/-- An infinite confidence is bounded; the missing number is not. -/
theorem labels_of_label_note :
    let reply (confidence : String) :=
      "\x7b\"tags\": [1, \"note\", \" \"], \"confidence\": " ++ confidence ++ "\x7d"
    let answer (confidence : String) := ((label (.replying (reply confidence)) {} "plain words").run {}).1
    (∃ labels, answer "Infinity" = .ok labels ∧ labels.tags = ["note", " "] ∧
      0.0 ≤ labels.confidence ∧ labels.confidence ≤ 1.0) ∧
      ∃ labels, answer "NaN" = .ok labels ∧ labels.tags = ["note", " "] ∧ labels.confidence.isNaN := by
  intro reply answer
  have hread (confidence : String) (x : Float)
      (hx : Json.lookup? "confidence" (Reply.content (reply confidence)).fields = some (.real x))
      (htags : (Reply.content (reply confidence)).tags = ["note", " "]) :
      ∃ labels, answer confidence = .ok labels ∧ labels.tags = ["note", " "] ∧
        (0.0 ≤ labels.confidence ∧ labels.confidence ≤ 1.0 ↔ ¬x.isNaN) ∧
        (labels.confidence.isNaN ↔ x.isNaN) := by
    have htakes : ({} : Labeller).Takes (.content (reply confidence)) :=
      ⟨rfl, ⟨"note", by simp [htags], by decide⟩, by rw [hx]; exact succeeds_ok x⟩
    obtain ⟨labels, h⟩ :=
      (label_succeeds_iff (.replying (reply confidence)) {} "plain words" {}).mpr htakes
    obtain ⟨heq, -, hmem, hmissing, -⟩ := labels_of_label h
    have hunsure : (Reply.content (reply confidence)).IsUnsure ↔ x.isNaN := by
      rw [Reply.IsUnsure, hx]
    exact ⟨labels, h, heq.trans htags, hmem.trans (not_congr hunsure), hmissing.trans hunsure⟩
  obtain ⟨labels, h, htags, hmem, -⟩ :=
    hread "Infinity" (1.0 / 0.0) (by dsimp only [reply]; rfl) (by decide +kernel)
  obtain ⟨labels', h', htags', -, hmissing⟩ :=
    hread "NaN" (0.0 / 0.0) (by dsimp only [reply]; rfl) (by decide +kernel)
  exact ⟨⟨labels, h, htags, hmem.mpr (by decide +kernel)⟩,
    labels', h', htags', hmissing.mpr (by decide +kernel)⟩

end Labeller

end Clipboard.Remote
