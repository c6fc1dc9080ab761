import Mathlib.Data.List.TakeWhile
import Clipboard.Proofs.Classify.Coherence
import Clipboard.Proofs.Remote.Reply

/-!
What a model has a say in. It is asked about texts that are neither a colour nor an address, and its
labels decide if they are taken; otherwise the rules decide, as they do without a model. Text that
scores as code and shows its language is code whoever decides.
-/

namespace Clipboard

open Fallible
open Remote (Labeller Labels Outside Transcript)

theorem Text.trim_of_isBlank {cs : List Char} (h : isBlank cs) : trim cs = [] := by
  have hdrop : cs.dropWhile isSpace = [] := List.dropWhile_eq_nil_iff.mpr (List.all_eq_true.mp h)
  rw [trim, hdrop]
  rfl

namespace Tags

variable {tags : List String} (h : ∀ tag ∈ tags, clean tag = "")
include h

theorem dedupe_of_clean : dedupe tags = [] := by
  refine List.foldlRecOn (motive := (· = [])) _ _ rfl fun kept hkept t ht => ?_
  obtain ⟨tag, htag, rfl⟩ := List.mem_map.mp ht
  simp [hkept, h tag htag]

theorem rank_of_clean (detected : Option String) : rank tags detected = [] := by
  have hpriority : priority.filter (([] : List String).contains ·) = [] := by decide
  simp only [rank, dedupe_of_clean h, hpriority]
  rfl

end Tags

namespace Classifier

/-! ## Texts that are left to the model or the rules -/

/-- Neither blank nor a colour nor an address. -/
structure IsOpen (cs : List Char) : Prop where
  not_blank : ¬Text.isBlank cs
  not_color : Color.ofText? cs = none
  not_link : ¬Link.isLink cs

theorem color_or_link_of_not_isOpen {cs : List Char} (hblank : ¬Text.isBlank cs) (h : ¬IsOpen cs) :
    (∃ color, Color.ofText? cs = some color) ∨ Color.ofText? cs = none ∧ Link.isLink cs := by
  cases hcolor : Color.ofText? cs with
  | some color => exact .inl ⟨color, rfl⟩
  | none =>
      refine .inr ⟨rfl, ?_⟩
      by_contra hnot
      exact h ⟨hblank, hcolor, hnot⟩

section

variable (o : Outside) (c : Classifier) (cs : List Char) (app : Option String) (t : Transcript)

theorem byStages_of_isOpen (h : IsOpen cs) :
    (c.byStages o cs app t).1 = (c.byModel o cs t).1.getD (c.byRules cs app) := by
  simp only [byStages, h.not_color, h.not_link, Bool.false_eq_true, if_false]
  rfl

/-- Colours and addresses are the same to all classifiers. -/
theorem byStages_of_not_isOpen (d : Classifier) (hblank : ¬Text.isBlank cs) (h : ¬IsOpen cs) :
    (c.byStages o cs app t).1 = (d.byStages o cs app t).1 := by
  rcases color_or_link_of_not_isOpen hblank h with ⟨color, hcolor⟩ | ⟨hcolor, hlink⟩
  · simp only [byStages, hcolor]
  · simp only [byStages, hcolor, hlink, if_true]

theorem byModel_eq_none_iff :
    (c.byModel o cs t).1 = none ↔ ∀ l ∈ c.labeller, ¬l.Takes (l.replyTo o (.ofList cs) t) := by
  unfold byModel
  cases c.labeller with
  | none => exact iff_of_true rfl (by simp)
  | some l =>
      simp only [Option.mem_some_iff, forall_eq', ← Labeller.label_succeeds_iff]
      rcases hr : (l.label o (.ofList cs)).run t with ⟨answer, t'⟩
      cases answer with
      | ok labels =>
          simp only [bind, StateT.bind, hr]
          exact iff_of_false nofun (not_not.mpr (succeeds_ok labels))
      | error f =>
          simp only [bind, StateT.bind, hr]
          exact iff_of_true rfl (not_succeeds_error f)

theorem byStages_of_not_takes (hopen : IsOpen cs)
    (h : ∀ l ∈ c.labeller, ¬l.Takes (l.replyTo o (.ofList cs) t)) :
    (c.byStages o cs app t).1 = c.byRules cs app := by
  rw [byStages_of_isOpen o c cs app t hopen, (byModel_eq_none_iff o c cs t).mpr h]
  rfl

theorem byModel_of_takes {l : Labeller} (hl : c.labeller = some l)
    (h : l.Takes (l.replyTo o (.ofList cs) t)) :
    ∃ labels, labels.tags = (l.replyTo o (.ofList cs) t).tags ∧
      (c.byModel o cs t).1 = some (c.ofLabels cs labels) := by
  obtain ⟨labels, hlabels⟩ := (Labeller.label_succeeds_iff o l (.ofList cs) t).mpr h
  refine ⟨labels, Labeller.tags_of_label hlabels, ?_⟩
  rcases hr : (l.label o (.ofList cs)).run t with ⟨answer, t'⟩
  obtain rfl : answer = .ok labels := by simpa [hr] using hlabels
  simp only [byModel, hl, bind, StateT.bind, hr]
  rfl

/-! ## Code whoever decides -/

theorem kind_ofLabels_of_strong {l : Language} (h : c.strongLanguage? cs = some l)
    (labels : Labels) : (c.ofLabels cs labels).kind = .code := by
  refine Tags.kindOf_eq_code_iff.mpr ?_
  rw [h]
  split
  · exact List.mem_cons_self
  · rename_i hnot
    simpa using hnot

theorem kind_byStages_of_strong {l : Language} (hopen : IsOpen cs)
    (h : c.strongLanguage? cs = some l) : (c.byStages o cs app t).1.kind = .code := by
  have hlooks : Code.looksLikeCode cs c.thresholds := by
    by_contra hnot
    simp [strongLanguage?, hnot] at h
  rw [byStages_of_isOpen o c cs app t hopen]
  rcases byModel_cases o c cs t with hmodel | ⟨labels, hmodel⟩
  · simp [hmodel, byRules, hlooks, asCode]
  · simpa [hmodel] using kind_ofLabels_of_strong c cs h labels

end

section

variable (o : Outside) (c : Classifier) (cs : List Char) (app : Option String)

@[simp]
theorem reason_upgradeMessage (r : Classification) :
    (c.upgradeMessage cs app r).reason = r.reason := by
  unfold upgradeMessage
  dsimp only
  split <;> rfl

/-- Only plain text becomes a message. -/
theorem kind_upgradeMessage (r : Classification) :
    (c.upgradeMessage cs app r).kind = r.kind ∨
      r.kind = .text ∧ (c.upgradeMessage cs app r).kind = .message := by
  unfold upgradeMessage
  dsimp only
  split
  · rename_i h
    simp only [Bool.and_eq_true, decide_eq_true_eq] at h
    exact .inr ⟨h.1, rfl⟩
  · exact .inl rfl

theorem reason_byRules : (c.byRules cs app).reason ≠ .model := by
  unfold byRules
  split
  · simp [asCode]
  · split <;> simp [asCode]

end

/-- Text that is neither a colour nor an address, scores as code by the thresholds and shows its
language by a signature is code, whether there is a model or not and whatever it says, and whatever
program the text comes from. -/
theorem kind_classify_of_code (o : Outside) (c : Classifier) (text : String) (app : Option String)
    (t : Transcript) (hcolor : Color.ofText? text.toList = none) (hlink : ¬Link.isLink text.toList)
    (hlooks : Code.looksLikeCode text.toList c.thresholds)
    (hlanguage : (Language.ofMarkers? text.toList).isSome) :
    ∃ r, (c.classify o text app t).1 = some r ∧ r.kind = .code := by
  have hblank : ¬Text.isBlank text.toList := by
    intro hblank
    simp [Code.looksLikeCode, Text.trim_of_isBlank hblank] at hlooks
  obtain ⟨l, hl⟩ := Option.isSome_iff_exists.mp hlanguage
  have hstrong : c.strongLanguage? text.toList = some l := by simp [strongLanguage?, hlooks, hl]
  have hstages := kind_byStages_of_strong o c text.toList app t ⟨hblank, hcolor, hlink⟩ hstrong
  refine ⟨_, by rw [c.classify_eq o text app t hblank], ?_⟩
  rcases c.kind_upgradeMessage text.toList app (c.byStages o text.toList app t).1 with h | ⟨h, -⟩
  · exact h.trans hstages
  · rw [hstages] at h
    cases h

/-- A statement of a program is code with a model that sees a recipe in it, and without a model. -/
theorem kind_classify_of_code_let :
    let o := Outside.replying "\x7b\"tags\": [\"recipe\"]\x7d"
    let kind (l : Option Labeller) :=
      (({ labeller := l } : Classifier).classify o "let mut x = f(y);" none {}).1.map (·.kind)
    kind none = some .code ∧ kind (some {}) = some .code := by
  intro o kind
  have hlooks : Code.looksLikeCode "let mut x = f(y);".toList ({} : Classifier).thresholds := by
    decide +kernel
  have hcode : ∀ l, kind l = some .code := by
    intro l
    obtain ⟨r, hr, hkind⟩ := kind_classify_of_code o { labeller := l } "let mut x = f(y);" none {}
      (by decide +kernel) (by decide +kernel) hlooks (by decide +kernel)
    simp only [kind, hr, Option.map_some, hkind]
  exact ⟨hcode none, hcode (some {})⟩

/-! ## Replies that nothing comes of -/

/-- Tags that nothing is left of leave a text plain unless it shows a language. -/
theorem withFloor_ofLabels_of_clean (c : Classifier) (text : String) (app : Option String)
    {labels : Labels} (hclean : ∀ tag ∈ labels.tags, Tags.clean tag = "")
    (hweak : c.strongLanguage? text.toList = none) :
    let r := c.upgradeMessage text.toList app (c.ofLabels text.toList labels)
    Tags.withFloor r.tags r.kind = ["text", "clipboard"] ∨
      Tags.withFloor r.tags r.kind = ["message", "chat"] := by
  have hplain : c.ofLabels text.toList labels =
      { kind := .text, tags := [], confidence := labels.confidence, reason := .model } := by
    simp only [ofLabels, Tags.rank_of_clean hclean, hweak]
    rfl
  intro r
  simp only [r, hplain, upgradeMessage]
  split
  · exact .inr rfl
  · exact .inl rfl

section

variable (o : Outside) (s : ClassifierSettings) (d : Detector) (l : Labeller) (text : String)
  (app : Option String) (t : Transcript)

/-- A model that is not asked, or whose reply is not taken, might as well not be there. -/
theorem classify_of_not_takes (h : IsOpen text.toList → ¬l.Takes (l.replyTo o text t)) :
    (classify o ⟨s, d, some l⟩ text app t).1 = (classify o ⟨s, d, none⟩ text app t).1 := by
  by_cases hblank : Text.isBlank text.toList
  · simp [classify, hblank]
  have hstages : (byStages o ⟨s, d, some l⟩ text.toList app t).1 =
      (byStages o ⟨s, d, none⟩ text.toList app t).1 := by
    by_cases hopen : IsOpen text.toList
    · rw [byStages_of_not_takes o ⟨s, d, none⟩ text.toList app t hopen (by simp)]
      refine byStages_of_not_takes o ⟨s, d, some l⟩ text.toList app t hopen ?_
      simpa using h hopen
    · exact byStages_of_not_isOpen o ⟨s, d, some l⟩ text.toList app t ⟨s, d, none⟩ hblank hopen
  rw [classify_eq _ o text app t hblank, classify_eq _ o text app t hblank, hstages]
  rfl

/-- No rule is asked about a text for which a reply is taken, even if its tags come to nothing. -/
theorem classify_of_takes (hopen : IsOpen text.toList) (htakes : l.Takes (l.replyTo o text t))
    (hclean : ∀ tag ∈ (l.replyTo o text t).tags, Tags.clean tag = "") :
    ∃ r, (classify o ⟨s, d, some l⟩ text app t).1 = some r ∧ r.reason = .model ∧
      (strongLanguage? ⟨s, d, some l⟩ text.toList = none →
        r.tags = ["text", "clipboard"] ∨ r.tags = ["message", "chat"]) := by
  obtain ⟨labels, hlabels, hmodel⟩ := byModel_of_takes o ⟨s, d, some l⟩ text.toList t rfl
    (by simpa only [String.ofList_toList] using htakes)
  rw [String.ofList_toList] at hlabels
  rw [classify_eq _ o text app t hopen.not_blank,
    byStages_of_isOpen o ⟨s, d, some l⟩ text.toList app t hopen, hmodel]
  refine ⟨_, rfl, ?_, fun hweak => ?_⟩
  · simp [ofLabels]
  · exact withFloor_ofLabels_of_clean _ text app (hlabels ▸ hclean) hweak

theorem reason_classify_unlabelled {r : Classification} (hopen : IsOpen text.toList)
    (h : (classify o ⟨s, d, none⟩ text app t).1 = some r) : r.reason ≠ .model := by
  rw [classify_eq _ o text app t hopen.not_blank,
    byStages_of_not_takes o ⟨s, d, none⟩ text.toList app t hopen (by simp)] at h
  cases h
  rw [reason_upgradeMessage]
  exact reason_byRules _ text.toList app

/-- Where the tags of a model's reply come to nothing, a classifier says what it says without the
model, unless the text is left to the model and the reply is taken for its having a tag that is not
blank. Then no rule is asked: the text is plain or a message, or code if it shows its language. -/
theorem classify_of_clean (hclean : ∀ tag ∈ (l.replyTo o text t).tags, Tags.clean tag = "") :
    let labelled : Classifier := ⟨s, d, some l⟩
    let unlabelled : Classifier := ⟨s, d, none⟩
    let isTaken := IsOpen text.toList ∧ l.Takes (l.replyTo o text t)
    ((labelled.classify o text app t).1 = (unlabelled.classify o text app t).1 ↔ ¬isTaken) ∧
      (isTaken → ∃ r, (labelled.classify o text app t).1 = some r ∧ r.reason = .model ∧
        (labelled.strongLanguage? text.toList = none →
          r.tags = ["text", "clipboard"] ∨ r.tags = ["message", "chat"])) := by
  intro labelled unlabelled isTaken
  have htaken := fun h : isTaken => classify_of_takes o s d l text app t h.1 h.2 hclean
  refine ⟨⟨fun heq h => ?_, fun h => ?_⟩, htaken⟩
  · obtain ⟨r, hr, hreason, -⟩ := htaken h
    exact reason_classify_unlabelled o s d text app t h.1 (heq ▸ hr) hreason
  · exact classify_of_not_takes o s d l text app t fun hopen htakes => h ⟨hopen, htakes⟩

end

/-- A model whose one tag is a row of exclamation marks keeps the rule for addresses from being
asked. One that gives no tags does not. -/
theorem classify_of_clean_address :
    let text := "see www.example.com for details"
    let marks := "\x7b\"tags\": [\"!!!\"]\x7d"
    let nothing := "\x7b\"tags\": []\x7d"
    let answer (l : Option Labeller) (reply : String) :=
      (({ labeller := l } : Classifier).classify (.replying reply) text none {}).1
    answer (some {}) marks ≠ answer none marks ∧
      (∃ r, answer (some {}) marks = some r ∧ r.reason = .model) ∧
      answer (some {}) nothing = answer none nothing := by
  intro text marks nothing answer
  have hmarks : (Remote.Reply.content marks).tags = ["!!!"] := by decide +kernel
  have hnothing : (Remote.Reply.content nothing).tags = [] := by decide +kernel
  have hconfidence : Json.lookup? "confidence" (Remote.Reply.content marks).fields = none :=
    Option.isNone_iff_eq_none.mp (by decide +kernel)
  have hopen : IsOpen text.toList := ⟨by decide, by decide +kernel, by decide +kernel⟩
  have htakes : ({} : Labeller).Takes (.content marks) :=
    ⟨rfl, ⟨"!!!", by simp [hmarks], by decide⟩, hconfidence ▸ Fallible.succeeds_ok _⟩
  have hclean : ∀ tag ∈ (Remote.Reply.content marks).tags, Tags.clean tag = "" := by
    rw [hmarks]
    exact List.forall_mem_singleton.mpr (by decide +kernel)
  have hempty : ∀ tag ∈ (Remote.Reply.content nothing).tags, Tags.clean tag = "" := by
    rw [hnothing]
    exact List.forall_mem_nil _
  obtain ⟨hleft, htaken⟩ := classify_of_clean (.replying marks) {} .silent {} text none {} hclean
  have hsame := (classify_of_clean (.replying nothing) {} .silent {} text none {} hempty).1
  refine ⟨fun h => hleft.mp h ⟨hopen, htakes⟩, ?_, hsame.mpr fun h => ?_⟩
  · obtain ⟨r, hr, hreason, -⟩ := htaken ⟨hopen, htakes⟩
    exact ⟨r, hr, hreason⟩
  · obtain ⟨tag, htag, -⟩ := h.2.tag
    exact List.not_mem_nil (hnothing ▸ htag)

end Classifier

end Clipboard
