import Clipboard.Calendar.DayPart
import Clipboard.Proofs.Pattern.Match
import Clipboard.Proofs.Text.Lower

/-!
Mentions of a part of the day. Each is the name of a part, up to the case of its letters; only an i
with a dot too many or too few keeps the name from being known.
-/

namespace Clipboard

/-! ## Mentions -/

/-- An i with a dot too many or too few. -/
def isOddI (c : Char) : Bool := c == 'ı' || c == 'İ'

theorem toLower_of_sameLetter {l c : Char} (hs : l.toLower ≠ 's') (hk : l.toLower ≠ 'k')
    (hc : ¬isOddI c) (h : Pattern.sameLetter l c) : c.toLower = l.toLower := by
  simp only [isOddI, Bool.or_eq_true, beq_iff_eq] at hc
  simpa [Pattern.sameLetter, hs, hk, or_comm.not.mp hc] using h

open Pattern (Spells)

/-- A small letter that no other character can stand for. -/
def isPlainLetter (l : Char) : Bool := l.toLower == l && l.toNat < 128 && l != 's' && l != 'k'

/-- A word of plain letters in some mixture of cases lowers to itself. -/
theorem lower_of_spells {word taken : List Char} (h : Spells word taken)
    (hword : ∀ l ∈ word, isPlainLetter l) (htaken : ∀ c ∈ taken, ¬isOddI c) :
    Text.lower taken = word := by
  simp only [isPlainLetter, Bool.and_eq_true, beq_iff_eq, decide_eq_true_eq, bne_iff_ne] at hword
  have hmap : taken.map Char.toLower = word := by
    induction h with
    | nil => rfl
    | cons hletter hrest ih =>
        rename_i l c word taken
        obtain ⟨⟨⟨⟨hl, -⟩, hs⟩, hk⟩, hword⟩ := List.forall_mem_cons.mp hword
        obtain ⟨hc, htaken⟩ := List.forall_mem_cons.mp htaken
        rw [List.map_cons, ih htaken hword,
          toLower_of_sameLetter (hl.symm ▸ hs) (hl.symm ▸ hk) hc hletter, hl]
  have hascii : ∀ c ∈ taken, c.toNat < 128 := by
    intro c hc
    have hmem : c.toLower ∈ word := hmap ▸ List.mem_map_of_mem hc
    exact Text.toNat_lt_of_toLower (hword _ hmem).1.1.2
  rw [Text.lower, Text.lowerFrom_of_ascii [] hascii, hmap]

namespace Calendar.DayPart

open Pattern

theorem mention_spec {cs : List Char} {k l : Cursor} (h : mention.search? cs = some (k, l)) :
    l.held ⊆ cs ∧ ∃ p : DayPart, Spells p.name.toList l.held := by
  obtain ⟨hsuffix, hmatch⟩ := searchFrom_spec h
  rw [match?, mention, run_append, run_append] at hmatch
  obtain ⟨name, hname, taken, k', htaken, hspells, hnext⟩ := run_anyCaseOf (run_here hmatch)
  have hl : ({ k' with held := k.textTo k' } : Cursor) = l := Option.some.inj (run_here hnext)
  obtain ⟨p, -, rfl⟩ := List.mem_map.mp hname
  rw [← hl, textTo_of_rest htaken]
  refine ⟨fun c hc => hsuffix.subset ?_, p, hspells⟩
  rw [htaken]
  exact List.mem_append_left _ hc

/-- No mention is unknown in a text without an odd i. -/
theorem mentioned_of_no_odd {cs : List Char} (h : ∀ c ∈ cs, ¬isOddI c) :
    ∃ part, mentioned cs = .ok part := by
  unfold mentioned
  cases hsearch : mention.search? cs with
  | none => exact ⟨none, rfl⟩
  | some found =>
      obtain ⟨k, l⟩ := found
      obtain ⟨hsubset, p, hspells⟩ := mention_spec hsearch
      have hletters : ∀ l ∈ p.name.toList, isPlainLetter l :=
        List.all_eq_true.mp (by cases p <;> decide)
      have hlower := lower_of_spells hspells hletters fun c hc => h c (hsubset hc)
      have hknown : ofName? p.name = some p := by cases p <;> decide
      simp only [hlower, String.ofList_toList, hknown]
      exact ⟨some p, rfl⟩

end Calendar.DayPart

end Clipboard
