import Clipboard.Proofs.Pattern.Passes
import Clipboard.Proofs.Text.Lower

/-!
Patterns that do not mind lower case. What they pass they pass again once it is in lower case and characters
between its parts are dropped, if each class of characters goes with a letter its lower case.
-/

namespace Clipboard.Pattern

open Text (isSpace lowerChar lowerFrom lower)

/-! ## Letters -/

/-- In lower case already, and no blank. -/
structure Settled (c : Char) : Prop where
  lower : lowerChar c = [c]
  visible : ¬isSpace c

instance (c : Char) : Decidable (Settled c) :=
  decidable_of_iff (lowerChar c = [c] ∧ ¬isSpace c)
    ⟨fun h => ⟨h.1, h.2⟩, fun h => ⟨h.lower, h.visible⟩⟩

theorem ne_sigma_of_lowerChar {c : Char} (h : lowerChar c = [c]) : c ≠ 'Σ' := by
  rintro rfl
  exact absurd h (by decide)

/-- Between the runs of letters with a lower case there are only characters without. -/
theorem lowerChar_of_apart {c : Char} (hascii : 128 ≤ c.toNat) (hi : c ≠ 'İ') (hsigma : c ≠ 'Σ')
    (h : ∀ r ∈ Text.lowerRuns.toList, c.toNat < r.first ∨ r.last < c.toNat) : lowerChar c = [c] := by
  have hpartner : Text.lowerRuns.findSome? (·.partner? c.toNat) = none := by
    refine Array.findSome?_eq_none_iff.mpr fun r hr => if_neg ?_
    have hrun := h r (Array.mem_toList_iff.mpr hr)
    simp only [Bool.and_eq_true, decide_eq_true_eq]
    omega
  simp [lowerChar, Nat.not_lt.mpr hascii, hi, hsigma, hpartner]

theorem lowerChar_of_isSpace {c : Char} (h : isSpace c) : lowerChar c = [c] := by
  have hall : ∀ n ∈ Text.blankNumbers, ((Char.ofNat n).toNat < 128 → (Char.ofNat n).toLower = .ofNat n) ∧
      Char.ofNat n ≠ 'İ' ∧ Char.ofNat n ≠ 'Σ' ∧
        ∀ r ∈ Text.lowerRuns.toList, n < r.first ∨ r.last < n := by
    decide +kernel
  obtain ⟨hascii, hi, hsigma, hruns⟩ := hall c.toNat (Text.toNat_mem_blankNumbers h)
  rw [Char.ofNat_toNat] at hascii hi hsigma
  by_cases hc : c.toNat < 128
  · rw [lowerChar, if_pos hc, hascii hc]
  · exact lowerChar_of_apart (Nat.not_lt.mp hc) hi hsigma hruns

theorem settled_of_isLower {c : Char} (h : c.isLower) : Settled c := by
  have hrange : 97 ≤ c.toNat ∧ c.toNat ≤ 122 := by
    obtain ⟨hlow, hhigh⟩ := Bool.and_eq_true_iff.mp h
    exact ⟨of_decide_eq_true hlow, of_decide_eq_true hhigh⟩
  have hself : c.toLower = c := by
    refine dif_neg fun hupper => ?_
    have hle : c.toNat ≤ 90 := hupper.2
    omega
  exact ⟨by rw [lowerChar, if_pos (by omega), hself], Text.not_isSpace_of_visible (by omega)⟩

theorem settled_longS : Settled 'ſ' :=
  ⟨lowerChar_of_apart (by decide) (by decide) (by decide) (by decide +kernel), by decide⟩

/-- Apart from sigmas letter after letter becomes lower case. -/
theorem lowerFrom_append_of_no_sigma {cs : List Char} (h : 'Σ' ∉ cs) (before after : List Char) :
    lowerFrom before (cs ++ after) = cs.flatMap lowerChar ++ lowerFrom (cs.reverse ++ before) after := by
  induction cs generalizing before with
  | nil => rfl
  | cons c cs ih =>
      obtain ⟨hc, hcs⟩ := List.ne_and_not_mem_of_not_mem_cons h
      rw [List.cons_append, lowerFrom, ih hcs]
      simp [Ne.symm hc]

theorem lower_of_settled {cs : List Char} (h : ∀ c ∈ cs, Settled c) : lower cs = cs := by
  have hsigma : 'Σ' ∉ cs := fun hmem => ne_sigma_of_lowerChar (h _ hmem).lower rfl
  have hsame : cs.flatMap lowerChar = cs := by
    induction cs with
    | nil => rfl
    | cons c cs ih =>
        obtain ⟨hc, hcs⟩ := List.forall_mem_cons.mp h
        rw [List.flatMap_cons, hc.lower, ih hcs fun hmem => hsigma (List.mem_cons_of_mem c hmem)]
        rfl
  have happend := lowerFrom_append_of_no_sigma hsigma [] []
  rwa [List.append_nil, hsame, lowerFrom, List.append_nil] at happend

/-- The class has with each of its letters one letter that is its lower case. -/
def Lowers (p : Char → Bool) : Prop := ∀ c, p c → c ≠ 'Σ' ∧ ∃ d, lowerChar c = [d] ∧ p d ∧ Settled d

/-! ## Cursors -/

section

variable {keep : Char → Bool}

/-- The text behind the second cursor is that behind the first one in lower case, without the characters that
are not kept. -/
structure Becomes (keep : Char → Bool) (k k' : Cursor) : Prop where
  /-- No blank ends the text. -/
  last : ∀ c ∈ k.rest.getLast?, ¬isSpace c
  text : ∃ before, k'.rest = (lowerFrom before k.rest).filter keep

theorem Becomes.pass {k k' l : Cursor} {taken : List Char} (h : Becomes keep k k')
    (hrest : k.rest = taken ++ l.rest) (hsigma : 'Σ' ∉ taken) : ∃ rest,
      k'.rest = (taken.flatMap lowerChar).filter keep ++ rest ∧
        ∀ l' : Cursor, l'.rest = rest → Becomes keep l l' := by
  obtain ⟨before, htext⟩ := h.text
  rw [hrest, lowerFrom_append_of_no_sigma hsigma, List.filter_append] at htext
  refine ⟨_, htext, fun l' hl' => ⟨fun c hc => h.last c ?_, _, hl'⟩⟩
  rw [hrest, List.getLast?_append, Option.mem_def.mp hc]
  rfl

/-- A text that does not end with a blank has no line feed to ignore. -/
theorem Becomes.nil_of_end {k k' : Cursor} (h : Becomes keep k k')
    (hend : k.rest.isEmpty || k.rest == ['\n']) : k.rest = [] ∧ k'.rest = [] := by
  have hnil : k.rest = [] := by
    rcases Bool.or_eq_true_iff.mp hend with hempty | hfeed
    · exact List.isEmpty_iff.mp hempty
    · have hlast := h.last '\n' (by rw [eq_of_beq hfeed]; rfl)
      exact absurd (by decide) hlast
  obtain ⟨before, htext⟩ := h.text
  rw [hnil, lowerFrom, List.filter_nil] at htext
  exact ⟨hnil, htext⟩

/-- The pattern passes in lower case what it passes. -/
def Keeps (keep : Char → Bool) (a : Pattern) : Prop :=
  ∀ ⦃k l k'⦄, a.Passes k l → Becomes keep k k' → ∃ l' taken, a.Passes k' l' ∧
    k'.rest = taken ++ l'.rest ∧ (∀ c ∈ taken, Settled c) ∧ Becomes keep l l'

theorem keeps_empty : Keeps keep empty := by
  rintro k _ k' rfl h
  exact ⟨k', [], rfl, rfl, List.forall_mem_nil _, h⟩

theorem keeps_append {a b : Pattern} (ha : Keeps keep a) (hb : Keeps keep b) : Keeps keep (a ++ b) := by
  rintro k l k' ⟨m, hm, hl⟩ h
  obtain ⟨m', taken, hm', hrest, htaken, h⟩ := ha hm h
  obtain ⟨l', taken', hl', hrest', htaken', h⟩ := hb hl h
  refine ⟨l', taken ++ taken', ⟨m', hm', hl'⟩, ?_, List.forall_mem_append.mpr ⟨htaken, htaken'⟩, h⟩
  rw [hrest, hrest', List.append_assoc]

theorem keeps_alt {a b : Pattern} (ha : Keeps keep a) (hb : Keeps keep b) : Keeps keep (alt a b) := by
  rintro k l k' (hl | hl) h
  · obtain ⟨l', taken, hl', hrest⟩ := ha hl h
    exact ⟨l', taken, .inl hl', hrest⟩
  · obtain ⟨l', taken, hl', hrest⟩ := hb hl h
    exact ⟨l', taken, .inr hl', hrest⟩

theorem keeps_optional {a : Pattern} (ha : Keeps keep a) : Keeps keep (optional a) :=
  keeps_alt ha keeps_empty

theorem keeps_oneOf {as : List Pattern} (h : ∀ a ∈ as, Keeps keep a) : Keeps keep (oneOf as) := by
  intro k l k' hl hbecomes
  obtain ⟨a, ha, hl⟩ := passes_oneOf.mp hl
  obtain ⟨l', taken, hl', hrest⟩ := h a ha hl hbecomes
  exact ⟨l', taken, passes_oneOf.mpr ⟨a, ha, hl'⟩, hrest⟩

theorem keeps_textEnd : Keeps keep textEnd := by
  rintro _ k k' ⟨hend, rfl⟩ h
  exact ⟨k', [], ⟨by rw [(h.nil_of_end hend).2]; rfl, rfl⟩, rfl, List.forall_mem_nil _, h⟩

theorem keeps_many {p : Char → Bool}
    (hp : ∀ c, p c → c ≠ 'Σ' ∧ ∀ d ∈ (lowerChar c).filter keep, p d ∧ Settled d) :
    Keeps keep (many p) := by
  intro k l k' hl h
  obtain ⟨taken, hrest, htaken⟩ := exists_of_passes_many hl
  obtain ⟨rest, htext, hbecomes⟩ := h.pass hrest fun hmem => (hp _ (htaken _ hmem)).1 rfl
  have hlowered : ∀ d ∈ (taken.flatMap lowerChar).filter keep, p d ∧ Settled d := by
    intro d hd
    obtain ⟨hmem, hkeep⟩ := List.mem_filter.mp hd
    obtain ⟨c, hc, hd⟩ := List.mem_flatMap.mp hmem
    exact (hp c (htaken c hc)).2 d (List.mem_filter.mpr ⟨hd, hkeep⟩)
  obtain ⟨l', hl', hrest'⟩ := exists_passes_many htext fun d hd => (hlowered d hd).1
  exact ⟨l', _, hl', by rw [htext, hrest'], fun d hd => (hlowered d hd).2, hbecomes l' hrest'⟩

theorem keeps_spaces (hdrop : ∀ c, isSpace c → ¬keep c) : Keeps keep spaces := by
  refine keeps_many fun c hc => ?_
  have hlower := lowerChar_of_isSpace hc
  exact ⟨ne_sigma_of_lowerChar hlower, by simp [hlower, hdrop c hc]⟩

section

variable (hkeep : ∀ c, ¬isSpace c → keep c) {p : Char → Bool} (hp : Lowers p)
include hkeep hp

theorem keeps_one : Keeps keep (one p) := by
  rintro k _ k' ⟨c, cs, hrest, hc, rfl⟩ h
  obtain ⟨hsigma, d, hd, hpd, hsettled⟩ := hp c hc
  obtain ⟨rest, htext, hbecomes⟩ := @Becomes.pass keep k k' (k.pass c cs) [c] h hrest
    (by simpa using Ne.symm hsigma)
  have hlowered : ([c].flatMap lowerChar).filter keep = [d] := by
    simp [hd, hkeep d hsettled.visible]
  rw [hlowered] at htext
  exact ⟨k'.pass d rest, [d], ⟨d, rest, htext, hpd, rfl⟩, htext,
    List.forall_mem_singleton.mpr hsettled, hbecomes _ rfl⟩

theorem keeps_someOf : Keeps keep (someOf p) := by
  refine keeps_append (keeps_one hkeep hp) (keeps_many fun c hc => ?_)
  obtain ⟨hsigma, d, hd, hpd, hsettled⟩ := hp c hc
  refine ⟨hsigma, fun e he => ?_⟩
  rw [hd] at he
  obtain rfl := List.mem_singleton.mp (List.mem_filter.mp he).1
  exact ⟨hpd, hsettled⟩

theorem keeps_counted (m n : Nat) : Keeps keep (counted p m n) := by
  induction m with
  | zero =>
      induction n with
      | zero => exact keeps_empty
      | succ n ih => exact keeps_optional (keeps_append (keeps_one hkeep hp) ih)
  | succ m ih => exact keeps_append (keeps_one hkeep hp) ih

end

theorem keeps_word (same : Char → Char → Bool) (hkeep : ∀ c, ¬isSpace c → keep c) {word : List Char}
    (h : ∀ c ∈ word, Lowers (same c)) :
    Keeps keep (word.foldr (fun c a => seq (one (same c)) a) empty) := by
  induction word with
  | nil => exact keeps_empty
  | cons c word ih =>
      obtain ⟨hc, hword⟩ := List.forall_mem_cons.mp h
      exact keeps_append (keeps_one hkeep hc) (ih hword)

theorem keeps_exactly (hkeep : ∀ c, ¬isSpace c → keep c) {s : String} (h : ∀ c ∈ s.toList, Settled c) :
    Keeps keep (exactly s) := by
  refine keeps_word (fun c d => d == c) hkeep fun c hc d hd => ?_
  obtain rfl := eq_of_beq hd
  have hsettled := h d hc
  exact ⟨ne_sigma_of_lowerChar hsettled.lower, d, hsettled.lower, hd, hsettled⟩

theorem lowers_sameLetter {l : Char} (hl : l.isLower) (hi : l ≠ 'i') : Lowers (sameLetter l) := by
  have hsettled := settled_of_isLower hl
  have hascii : l.toNat < 128 := by
    have hhigh : l.toNat ≤ 122 := of_decide_eq_true (Bool.and_eq_true_iff.mp hl).2
    omega
  have hself : l.toLower = l := by
    have hlower := hsettled.lower
    rw [lowerChar, if_pos hascii] at hlower
    exact List.singleton_inj.mp hlower
  intro c hc
  simp only [sameLetter, hself, Bool.or_eq_true, Bool.and_eq_true, beq_iff_eq] at hc
  rcases hc with ((hc | ⟨rfl, -⟩) | ⟨rfl, rfl⟩) | ⟨rfl, rfl⟩
  · have hcascii : c.toNat < 128 := Text.toNat_lt_of_toLower (by rw [hc]; exact hascii)
    refine ⟨?_, l, by rw [lowerChar, if_pos hcascii, hc], by simp [sameLetter], hsettled⟩
    rintro rfl
    exact absurd hcascii (by decide)
  · exact absurd rfl hi
  · exact ⟨by decide, 'ſ', settled_longS.lower, by decide, settled_longS⟩
  · exact ⟨by decide, 'k', by decide +kernel, by decide, by decide⟩

theorem keeps_anyCase (hkeep : ∀ c, ¬isSpace c → keep c) {s : String}
    (h : ∀ c ∈ s.toList, c.isLower ∧ c ≠ 'i') : Keeps keep (anyCase s) :=
  keeps_word sameLetter hkeep fun c hc => lowers_sameLetter (h c hc).1 (h c hc).2

/-! ## Whole texts -/

/-- The pattern ends with the text. -/
def EndsText (a : Pattern) : Prop := ∀ ⦃k l⦄, a.Passes k l → l.rest.isEmpty || l.rest == ['\n']

theorem endsText_textEnd : EndsText textEnd := by
  rintro _ k ⟨hend, rfl⟩
  exact hend

theorem endsText_append {a b : Pattern} (h : EndsText b) : EndsText (a ++ b) := by
  rintro k l ⟨m, -, hl⟩
  exact h hl

theorem starts_lower {a : Pattern} (ha : Keeps keep a) (hend : EndsText a) {cs : List Char}
    (hlast : ∀ c ∈ cs.getLast?, ¬isSpace c) (h : a.starts cs) :
    a.starts ((lower cs).filter keep) ∧ ∀ c ∈ (lower cs).filter keep, Settled c := by
  obtain ⟨l, hl⟩ := starts_iff.mp h
  have hbecomes : Becomes keep (.start cs) (.start ((lower cs).filter keep)) := ⟨hlast, [], rfl⟩
  obtain ⟨l', taken, hl', hrest, htaken, hbecomes⟩ := ha hl hbecomes
  refine ⟨starts_iff.mpr ⟨l', hl'⟩, ?_⟩
  rw [(hbecomes.nil_of_end (hend hl)).2, List.append_nil] at hrest
  rw [show (lower cs).filter keep = taken from hrest]
  exact htaken

end

end Clipboard.Pattern
