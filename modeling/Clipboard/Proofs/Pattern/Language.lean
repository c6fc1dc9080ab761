import Clipboard.Proofs.Pattern.Passes
import Clipboard.Proofs.Text.Lower

/-!
The texts that a pattern passes, for patterns that look at nothing else: neither at what stands around the text
nor at what is held.
-/

namespace Clipboard.Pattern

/-- The pattern passes exactly the texts of the language, wherever they stand. -/
def Spans (a : Pattern) (L : List Char → Prop) : Prop :=
  ∀ (k : Cursor) rest, (∃ l, a.Passes k l ∧ l.rest = rest) ↔ ∃ taken, L taken ∧ k.rest = taken ++ rest

section

variable {a b : Pattern} {L M : List Char → Prop}

theorem Spans.congr (h : Spans a L) (hLM : ∀ taken, L taken ↔ M taken) : Spans a M := by
  intro k rest
  simp only [h k rest, hLM]

theorem Spans.exists_of_passes (h : Spans a L) {k l : Cursor} (hl : a.Passes k l) :
    ∃ taken, L taken ∧ k.rest = taken ++ l.rest :=
  (h k l.rest).mp ⟨l, hl, rfl⟩

theorem spans_one (p : Char → Bool) : Spans (one p) fun taken => ∃ c, p c ∧ taken = [c] := by
  intro k rest
  constructor
  · rintro ⟨l, ⟨c, cs, hrest, hc, rfl⟩, rfl⟩
    exact ⟨[c], ⟨c, hc, rfl⟩, hrest⟩
  · rintro ⟨_, ⟨c, hc, rfl⟩, hrest⟩
    exact ⟨k.pass c rest, ⟨c, rest, hrest, hc, rfl⟩, rfl⟩

theorem spans_many (p : Char → Bool) : Spans (many p) fun taken => ∀ c ∈ taken, p c := by
  intro k rest
  constructor
  · rintro ⟨l, hl, rfl⟩
    obtain ⟨taken, hrest, htaken⟩ := exists_of_passes_many hl
    exact ⟨taken, htaken, hrest⟩
  · rintro ⟨taken, htaken, hrest⟩
    exact exists_passes_many hrest htaken

theorem spans_empty : Spans empty (· = []) := by
  intro k rest
  constructor
  · rintro ⟨_, rfl, rfl⟩
    exact ⟨[], rfl, rfl⟩
  · rintro ⟨_, rfl, hrest⟩
    exact ⟨k, rfl, hrest⟩

theorem spans_append (ha : Spans a L) (hb : Spans b M) :
    Spans (a ++ b) fun taken => ∃ u w, L u ∧ M w ∧ taken = u ++ w := by
  intro k rest
  constructor
  · rintro ⟨l, ⟨m, hm, hl⟩, rfl⟩
    obtain ⟨u, hu, hk⟩ := ha.exists_of_passes hm
    obtain ⟨w, hw, hm⟩ := hb.exists_of_passes hl
    exact ⟨u ++ w, ⟨u, w, hu, hw, rfl⟩, by rw [hk, hm, List.append_assoc]⟩
  · rintro ⟨_, ⟨u, w, hu, hw, rfl⟩, hrest⟩
    obtain ⟨m, hm, hmrest⟩ := (ha k (w ++ rest)).mpr ⟨u, hu, by rw [hrest, List.append_assoc]⟩
    obtain ⟨l, hl, hlrest⟩ := (hb m rest).mpr ⟨w, hw, hmrest⟩
    exact ⟨l, ⟨m, hm, hl⟩, hlrest⟩

theorem spans_alt (ha : Spans a L) (hb : Spans b M) : Spans (alt a b) fun taken => L taken ∨ M taken := by
  intro k rest
  simp only [Passes, or_and_right, exists_or, ha k rest, hb k rest]

theorem spans_optional (ha : Spans a L) : Spans (optional a) fun taken => L taken ∨ taken = [] :=
  spans_alt ha spans_empty

/-- One or more characters of the class. -/
theorem spans_someOf (p : Char → Bool) :
    Spans (someOf p) fun taken => ∃ c cs, taken = c :: cs ∧ p c ∧ ∀ d ∈ cs, p d := by
  refine (spans_append (spans_one p) (spans_many p)).congr fun taken => ?_
  constructor
  · rintro ⟨_, cs, ⟨c, hc, rfl⟩, hcs, rfl⟩
    exact ⟨c, cs, rfl, hc, hcs⟩
  · rintro ⟨c, cs, rfl, hc, hcs⟩
    exact ⟨[c], cs, ⟨c, hc, rfl⟩, hcs, rfl⟩

end

/-! ## Words -/

theorem spans_word (same : Char → Char → Bool) (f : Char → Char) {word : List Char}
    (h : ∀ l ∈ word, ∀ c, same l c ↔ f c = l) :
    Spans (word.foldr (fun l a => seq (one (same l)) a) empty) fun taken => taken.map f = word := by
  induction word with
  | nil => exact spans_empty.congr fun taken => List.map_eq_nil_iff.symm
  | cons l word ih =>
      obtain ⟨hl, hword⟩ := List.forall_mem_cons.mp h
      refine (spans_append (spans_one (same l)) (ih hword)).congr fun taken => ?_
      rw [List.map_eq_cons_iff]
      constructor
      · rintro ⟨_, w, ⟨c, hc, rfl⟩, hw, rfl⟩
        exact ⟨c, w, rfl, (hl c).mp hc, hw⟩
      · rintro ⟨c, w, rfl, hc, hw⟩
        exact ⟨[c], w, ⟨c, (hl c).mpr hc, rfl⟩, hw, rfl⟩

theorem spans_exactly (s : String) : Spans (exactly s) (· = s.toList) := by
  have hspans : Spans (exactly s) fun taken => taken.map id = s.toList :=
    spans_word (fun l c => c == l) id fun l _ c => beq_iff_eq
  exact hspans.congr fun taken => by rw [List.map_id]

/-- The letter as which a character counts whatever its case; others are in lower case. -/
def letterOf (c : Char) : Char :=
  if c == 'İ' || c == 'ı' then 'i' else if c == 'ſ' then 's' else if c == '\u212a' then 'k' else c.toLower

/-- An ASCII character that is no capital. -/
def IsPlain (l : Char) : Prop := l.toNat < 128 ∧ l.toLower = l

instance (l : Char) : Decidable (IsPlain l) := inferInstanceAs (Decidable (_ ∧ _))

theorem letterOf_of_ascii {c : Char} (h : c.toNat < 128) : letterOf c = c.toLower := by
  have hne (d : Char) (hd : 128 ≤ d.toNat) : (c == d) = false := by
    rw [beq_eq_false_iff_ne]
    rintro rfl
    omega
  simp [letterOf, hne 'İ' (by decide), hne 'ı' (by decide), hne 'ſ' (by decide),
    hne '\u212a' (by decide)]

theorem sameLetter_iff {l : Char} (hl : IsPlain l) (c : Char) : sameLetter l c ↔ letterOf c = l := by
  obtain ⟨hascii, hself⟩ := hl
  simp only [sameLetter, hself, Bool.or_eq_true, Bool.and_eq_true, beq_iff_eq]
  constructor
  · rintro (((h | ⟨rfl, rfl | rfl⟩) | ⟨rfl, rfl⟩) | ⟨rfl, rfl⟩)
    · rw [letterOf_of_ascii (Text.toNat_lt_of_toLower (h ▸ hascii)), h]
    · rfl
    · rfl
    · rfl
    · rfl
  · unfold letterOf
    simp only [Bool.or_eq_true, beq_iff_eq]
    split
    · rintro rfl
      exact .inl (.inl (.inr ⟨rfl, by assumption⟩))
    split
    · rintro rfl
      exact .inl (.inr ⟨rfl, by assumption⟩)
    split
    · rintro rfl
      exact .inr ⟨rfl, by assumption⟩
    · exact fun h => .inl (.inl (.inl h))

theorem spans_anyCase {s : String} (hs : ∀ l ∈ s.toList, IsPlain l) :
    Spans (anyCase s) fun taken => taken.map letterOf = s.toList :=
  spans_word sameLetter letterOf fun l hl => sameLetter_iff (hs l hl)

end Clipboard.Pattern
