import Clipboard.Proofs.Fallible
import Clipboard.Json.Parser

/-!
Where a text in quotes ends. Its closing quote is told by what stands before it: the same text is read from
the front up to there, whatever follows. A pair of units is read as one only if both halves are there.
-/

namespace Clipboard.Json

open Fallible
open Text (CodePoint)

/-! ## Units -/

/-- No second half of a pair follows the first half. -/
def StandsAlone (high : Nat) (rest : List Char) : Prop :=
  isHighUnit high → ∀ ds, rest = '\\' :: 'u' :: ds → 4 < ds.length →
    ∃ low, hexUnit? (ds.take 4) = some low ∧ ¬isLowUnit low

/-- The character that two halves make. -/
def pairOf (high low : Nat) : CodePoint :=
  .char (.ofNat (0x10000 + (high - 0xd800) * 1024 + (low - 0xdc00)))

theorem length_of_hexUnit? {unit : List Char} {n : Nat} (h : hexUnit? unit = some n) :
    unit.length = 4 := by
  unfold hexUnit? at h
  split at h
  · rfl
  · cases h

section

variable {unit unit' rest : List Char} {high low : Nat}

theorem readCodePoint_single (hunit : hexUnit? unit = some high) (hrest : rest ≠ [])
    (halone : StandsAlone high rest) : readCodePoint (unit ++ rest) = .ok (.ofUnit high, rest) := by
  have hlength := length_of_hexUnit? hunit
  have hpos := List.length_pos_iff.mpr hrest
  have hshort : ¬(unit ++ rest).length ≤ 4 := by rw [List.length_append]; omega
  have hlong : (10 < (unit ++ rest).length) = (6 < rest.length) := by
    rw [List.length_append, eq_iff_iff]; omega
  rw [readCodePoint, if_neg hshort, List.take_left' hlength, List.drop_left' hlength, hunit]
  dsimp only
  split
  · rename_i ds hhigh
    simp only [hlong, Bool.and_eq_true, decide_eq_true_eq, List.length_cons] at hhigh
    obtain ⟨low, hlow, hnot⟩ := halone hhigh.1 ds rfl (by omega)
    simp only [hlow, hnot, Bool.false_eq_true, if_false]
  · rfl

theorem readCodePoint_pair (hunit : hexUnit? unit = some high) (hhigh : isHighUnit high)
    (hunit' : hexUnit? unit' = some low) (hlow : isLowUnit low) (hrest : rest ≠ []) :
    readCodePoint (unit ++ '\\' :: 'u' :: (unit' ++ rest)) = .ok (pairOf high low, rest) := by
  have hlength := length_of_hexUnit? hunit
  have hlength' := length_of_hexUnit? hunit'
  have hpos := List.length_pos_iff.mpr hrest
  have hshort : ¬(unit ++ '\\' :: 'u' :: (unit' ++ rest)).length ≤ 4 := by simp; omega
  have hlong : 10 < (unit ++ '\\' :: 'u' :: (unit' ++ rest)).length := by simp; omega
  rw [readCodePoint, if_neg hshort, List.take_left' hlength, List.drop_left' hlength, hunit]
  simp only [hhigh, hlong, decide_true, Bool.and_true, List.take_left' hlength',
    List.drop_left' hlength', hunit', hlow, if_true]
  rfl

end

/-- What has been read is a unit that stands alone or a pair, and more text follows. -/
theorem readCodePoint_cases {cs rest : List Char} {p : CodePoint}
    (h : readCodePoint cs = .ok (p, rest)) : rest ≠ [] ∧ ∃ unit high, hexUnit? unit = some high ∧
      ((cs = unit ++ rest ∧ p = .ofUnit high ∧ StandsAlone high rest) ∨
        ∃ unit' low, hexUnit? unit' = some low ∧ isHighUnit high ∧ isLowUnit low ∧
          cs = unit ++ '\\' :: 'u' :: (unit' ++ rest) ∧ p = pairOf high low) := by
  unfold readCodePoint at h
  split at h
  · cases h
  rename_i hshort
  split at h
  · cases h
  rename_i high hhigh
  have hcs : cs = cs.take 4 ++ cs.drop 4 := (List.take_append_drop 4 cs).symm
  have hlength : (cs.drop 4).length = cs.length - 4 := List.length_drop
  split at h
  · rename_i ds hlong hds
    simp only [Bool.and_eq_true, decide_eq_true_eq] at hlong
    rw [hds] at hcs hlength
    simp only [List.length_cons] at hlength
    split at h
    · cases h
    rename_i low hlow
    split at h
    · cases h
      refine ⟨?_, cs.take 4, high, hhigh, .inr ⟨ds.take 4, low, hlow, hlong.1, by assumption, ?_, rfl⟩⟩
      · rw [← List.length_pos_iff, List.length_drop]; omega
      · rw [List.take_append_drop]; exact hcs
    · rename_i hnot
      cases h
      refine ⟨by simp [hds], cs.take 4, high, hhigh, .inl ⟨by rw [hds]; exact hcs, rfl, ?_⟩⟩
      intro _ es hes _
      rw [hds] at hes
      cases hes
      exact ⟨low, hlow, hnot⟩
  · rename_i hnot
    cases h
    refine ⟨?_, cs.take 4, high, hhigh, .inl ⟨hcs, rfl, ?_⟩⟩
    · rw [← List.length_pos_iff]; omega
    · intro hisHigh es hes hlong
      rw [hes] at hlength
      simp only [List.length_cons] at hlength
      refine absurd hes (hnot es ?_)
      simp only [hisHigh, Bool.true_and, decide_eq_true_eq]
      omega

/-! ## Texts -/

section

variable (opened fuel : Nat) (acc : List CodePoint) (cs : List Char)

/-- Nothing ends a text but a quote. -/
theorem readPoints_nil : readPoints opened fuel acc [] = .error (.unclosedText, opened) := by
  cases fuel <;> rfl

theorem readPoints_unit {digits rest : List Char} {p : CodePoint}
    (h : readCodePoint digits = .ok (p, rest)) :
    readPoints opened (fuel + 1) acc ('\\' :: 'u' :: digits) =
      readPoints opened fuel (p :: acc) rest := by
  rw [readPoints, h]
  rfl

theorem readPoints_escape {c e : Char} (hc : c ≠ 'u') (he : plainEscape? c = some e) :
    readPoints opened (fuel + 1) acc ('\\' :: c :: cs) =
      readPoints opened fuel (.char e :: acc) cs := by
  simp [readPoints, he]

theorem readPoints_char {c : Char} (hquote : c ≠ '"') (hslash : c ≠ '\\') (hc : ¬c.toNat < 32) :
    readPoints opened (fuel + 1) acc (c :: cs) = readPoints opened fuel (.char c :: acc) cs := by
  simp [readPoints, hc]

end

section

variable {opened fuel : Nat} {acc ps : List CodePoint} {taken rest : List Char}

theorem four_lt_of_readPoints {ds : List Char} {r : List CodePoint × List Char}
    (h : readPoints opened fuel acc ('\\' :: 'u' :: ds) = .ok r) : 4 < ds.length := by
  cases fuel with
  | zero => cases h
  | succ fuel =>
      rw [readPoints] at h
      obtain ⟨⟨p, rest⟩, hread, -⟩ := bind_eq_ok_iff.mp h
      obtain ⟨hrest, unit, high, hunit, ⟨hds, -, -⟩ | ⟨unit', low, hunit', -, -, hds, -⟩⟩ :=
        readCodePoint_cases hread
      all_goals
        have hpos := List.length_pos_iff.mpr hrest
        have hlength := length_of_hexUnit? hunit
        simp [hds]
        omega

/-- Whether a half stands alone is told by the text up to its closing quote. -/
theorem StandsAlone.congr {high : Nat} (h : StandsAlone high (taken ++ rest))
    (hread : readPoints opened fuel acc taken = .ok (ps, [])) (more : List Char) :
    StandsAlone high (taken ++ more) := by
  intro hhigh ds hds _
  match taken, hread with
  | [], hread => rw [readPoints_nil] at hread; cases hread
  | [c], hread =>
      obtain ⟨rfl, -⟩ := List.cons.inj hds
      cases fuel <;> cases hread
  | c :: d :: ts, hread =>
      simp only [List.cons_append, List.cons.injEq] at hds
      obtain ⟨rfl, rfl, rfl⟩ := hds
      have hlong := four_lt_of_readPoints hread
      obtain ⟨low, hlow, hnot⟩ := h hhigh (ts ++ rest) rfl (by rw [List.length_append]; omega)
      rw [List.take_append_of_le_length (Nat.le_of_lt hlong)] at hlow ⊢
      exact ⟨low, hlow, hnot⟩

/-- A code point before the rest of a text that is closed is read the same whatever follows the text. -/
theorem readCodePoint_local {digits : List Char} {p : CodePoint}
    (h : readCodePoint digits = .ok (p, taken ++ rest))
    (hread : readPoints opened fuel acc taken = .ok (ps, [])) :
    ∃ unit, digits = unit ++ (taken ++ rest) ∧
      ∀ more, readCodePoint (unit ++ (taken ++ more)) = .ok (p, taken ++ more) := by
  have hne (more : List Char) : taken ++ more ≠ [] := by
    intro hnil
    rw [(List.append_eq_nil_iff.mp hnil).1, readPoints_nil] at hread
    cases hread
  obtain ⟨-, unit, high, hunit, hpair⟩ := readCodePoint_cases h
  obtain ⟨hdigits, rfl, halone⟩ | ⟨unit', low, hunit', hhigh, hlow, hdigits, rfl⟩ := hpair
  · exact ⟨unit, hdigits, fun more => readCodePoint_single hunit (hne more) (halone.congr hread more)⟩
  · refine ⟨unit ++ '\\' :: 'u' :: unit', by simpa using hdigits, fun more => ?_⟩
    simpa using readCodePoint_pair hunit hhigh hunit' hlow (hne more)

/-- The code points are read from what is taken, whatever follows. The fuel lasts if there is as much of it. -/
def ReadsPoints (acc : List CodePoint) (taken : List Char) (ps : List CodePoint) : Prop :=
  ∀ opened fuel more, taken.length ≤ fuel → readPoints opened fuel acc (taken ++ more) = .ok (ps, more)

/-- A step passes at least one character. -/
theorem ReadsPoints.append {front : List Char} {p : CodePoint} (h : ReadsPoints (p :: acc) taken ps)
    (hlength : 0 < front.length)
    (hfront : ∀ opened fuel more, readPoints opened (fuel + 1) acc (front ++ (taken ++ more)) =
      readPoints opened fuel (p :: acc) (taken ++ more)) : ReadsPoints acc (front ++ taken) ps := by
  intro opened fuel more hfuel
  rw [List.length_append] at hfuel
  obtain ⟨fuel, rfl⟩ := Nat.exists_eq_add_of_le' (show 1 ≤ fuel by omega)
  rw [List.append_assoc, hfront]
  exact h opened fuel more (by omega)

theorem readPoints_local {cs : List Char} (h : readPoints opened fuel acc cs = .ok (ps, rest)) :
    ∃ taken, cs = taken ++ rest ∧ ReadsPoints acc taken ps := by
  induction fuel generalizing acc cs with
  | zero => cases h
  | succ fuel ih =>
      unfold readPoints at h
      split at h
      · cases h
      · cases h
        refine ⟨['"'], rfl, fun opened' fuel' more hfuel => ?_⟩
        obtain ⟨fuel', rfl⟩ := Nat.exists_eq_add_of_le' hfuel
        rfl
      · rename_i tail
        split at h
        · cases h
        · rename_i digits
          obtain ⟨⟨p, mid⟩, hpoint, hbehind⟩ := bind_eq_ok_iff.mp h
          obtain ⟨taken, rfl, htaken⟩ := ih hbehind
          have hclosed := htaken 0 taken.length [] (Nat.le_refl _)
          rw [List.append_nil] at hclosed
          obtain ⟨unit, rfl, hunit⟩ := readCodePoint_local hpoint hclosed
          exact ⟨'\\' :: 'u' :: unit ++ taken, by simp,
            htaken.append (by simp) fun _ _ more => readPoints_unit _ _ _ (hunit more)⟩
        · rename_i c tail hu
          split at h
          · cases h
          · rename_i e he
            obtain ⟨taken, rfl, htaken⟩ := ih h
            exact ⟨['\\', c] ++ taken, rfl,
              htaken.append (by simp) fun _ _ _ => readPoints_escape _ _ _ _ hu he⟩
      · rename_i c tail hquote hslash
        split at h
        · cases h
        · rename_i hplain
          obtain ⟨taken, rfl, htaken⟩ := ih h
          exact ⟨[c] ++ taken, rfl,
            htaken.append (by simp) fun _ _ _ => readPoints_char _ _ _ _ hquote hslash hplain⟩

end

theorem readText_local {cs rest : List Char} {ps : List CodePoint} (h : readText cs = .ok (ps, rest)) :
    ∃ taken, cs = taken ++ rest ∧ ∀ more, readText (taken ++ more) = .ok (ps, more) := by
  obtain ⟨taken, hcs, htaken⟩ := readPoints_local h
  refine ⟨taken, hcs, fun more => htaken _ _ more ?_⟩
  rw [List.length_append]
  omega

end Clipboard.Json
