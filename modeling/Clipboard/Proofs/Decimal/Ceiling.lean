import Mathlib.Tactic.SplitIfs
import Clipboard.Decimal.Ceiling

/-!
Shares of a number of things. Rounding to 53 binary places at most doubles a number, so that a share
of a number that can occur is never infinite. It does not pass a number that has no more places, so that
a share of a number with at most 53 places is no more than the number.
-/

namespace Clipboard.Decimal

theorem roundDiv_le (num den : Nat) : roundDiv num den ≤ num / den + 1 := by
  unfold roundDiv
  dsimp only
  split_ifs <;> omega

theorem roundedTo53_le (n : Nat) : roundedTo53 n ≤ 2 * n := by
  rcases Nat.eq_zero_or_pos n with rfl | hpos
  · decide
  have hunit : 2 ^ (Nat.log2 n + 1 - 53) ≤ n :=
    Nat.le_trans (Nat.pow_le_pow_right (by decide) (by omega)) (Nat.log2_self_le (by omega))
  calc roundedTo53 n
      ≤ (n / 2 ^ (Nat.log2 n + 1 - 53) + 1) * 2 ^ (Nat.log2 n + 1 - 53) :=
        Nat.mul_le_mul_right _ (roundDiv_le _ _)
    _ = n / 2 ^ (Nat.log2 n + 1 - 53) * 2 ^ (Nat.log2 n + 1 - 53) + 2 ^ (Nat.log2 n + 1 - 53) :=
        Nat.succ_mul _ _
    _ ≤ n + n := Nat.add_le_add (Nat.div_mul_le_self _ _) hunit
    _ = 2 * n := (Nat.two_mul n).symm

theorem scaled_le {k m n : Nat} (e : Int) (h : k ≤ n * m) :
    (scaled k e).1 ≤ n * (scaled m e).1 ∧ (scaled k e).2 = (scaled m e).2 := by
  unfold scaled
  split
  · rw [← Nat.mul_assoc]
    exact ⟨Nat.mul_le_mul_right _ h, rfl⟩
  · exact ⟨h, rfl⟩

/-- A share of so many things is a number of things. -/
theorem ceilingOfProduct_of_isShare {x : Float} (h : isShare x) {n : Nat} (hn : n < 2 ^ 1023) :
    ∃ k, ceilingOfProduct n x = .whole k := by
  unfold isShare at h
  unfold ceilingOfProduct
  cases hx : Parts.of x with
  | nan => simp [hx] at h
  | infinite negative => simp [hx] at h
  | finite negative m e =>
      cases negative with
      | true => simp [hx] at h
      | false =>
          simp only [hx, Bool.and_eq_true, decide_eq_true_eq] at h
          have hround : roundedTo53 (n * m) ≤ 2 * n * m := by
            rw [Nat.mul_assoc]
            exact roundedTo53_le (n * m)
          obtain ⟨hnum, hden⟩ := scaled_le e hround
          have hfinite : (scaled (roundedTo53 (n * m)) e).1 <
              (scaled (roundedTo53 (n * m)) e).2 * 2 ^ 1024 := by
            rw [hden]
            calc (scaled (roundedTo53 (n * m)) e).1
                ≤ 2 * n * (scaled m e).1 := hnum
              _ ≤ 2 * n * (scaled m e).2 := Nat.mul_le_mul_left _ h.2
              _ = (scaled m e).2 * (2 * n) := Nat.mul_comm _ _
              _ < (scaled m e).2 * 2 ^ 1024 :=
                Nat.mul_lt_mul_of_pos_left (by omega) (Nat.lt_of_lt_of_le h.1 h.2)
          simp only [if_neg (Nat.not_le.mpr hfinite), Bool.false_eq_true, if_false]
          exact ⟨_, rfl⟩

/-! ## No more than there are -/

theorem roundDiv_le_of_le {num den q : Nat} (h : num ≤ q * den) : roundDiv num den ≤ q := by
  have hfloor : num / den ≤ q := Nat.div_le_of_le_mul (by rwa [Nat.mul_comm])
  rcases Nat.lt_or_eq_of_le hfloor with hless | rfl
  · exact Nat.le_trans (roundDiv_le num den) hless
  · -- The quotient is whole, so that nothing is rounded.
    have hrest : num % den = 0 := by
      have hparts := Nat.div_add_mod' num den
      omega
    unfold roundDiv
    dsimp only
    split_ifs with hless hmore heven
    · exact Nat.le_refl _
    · omega
    · exact Nat.le_refl _
    · obtain rfl : den = 0 := by omega
      simp at heven

theorem roundedTo53_le_of_le {k q x : Nat} (h : k ≤ q * 2 ^ x) (hq : q ≤ 2 ^ 53) :
    roundedTo53 k ≤ q * 2 ^ x := by
  unfold roundedTo53
  by_cases hplaces : Nat.log2 k + 1 - 53 ≤ x
  · -- The bound is a multiple of the unit to which is rounded.
    generalize Nat.log2 k + 1 - 53 = extra at hplaces ⊢
    have hunit : q * 2 ^ x = q * 2 ^ (x - extra) * 2 ^ extra := by
      rw [Nat.mul_assoc, ← Nat.pow_add, Nat.sub_add_cancel hplaces]
    rw [hunit] at h ⊢
    exact Nat.mul_le_mul_right _ (roundDiv_le_of_le h)
  · -- The number is a power of two, and its own rounding.
    have hk : k ≠ 0 := by
      rintro rfl
      simp at hplaces
    have hpower : q * 2 ^ x ≤ 2 ^ 52 * 2 ^ (Nat.log2 k + 1 - 53) := by
      calc q * 2 ^ x
          ≤ 2 ^ 53 * 2 ^ (Nat.log2 k - 53) :=
            Nat.mul_le_mul hq (Nat.pow_le_pow_right (by decide) (by omega))
        _ = 2 ^ (Nat.log2 k) := by rw [← Nat.pow_add]; congr 1; omega
        _ = 2 ^ 52 * 2 ^ (Nat.log2 k + 1 - 53) := by rw [← Nat.pow_add]; congr 1; omega
    have hlow : 2 ^ 52 * 2 ^ (Nat.log2 k + 1 - 53) ≤ k := by
      have hlog := Nat.log2_self_le hk
      rwa [show Nat.log2 k = 52 + (Nat.log2 k + 1 - 53) by omega, Nat.pow_add] at hlog
    calc roundDiv k (2 ^ (Nat.log2 k + 1 - 53)) * 2 ^ (Nat.log2 k + 1 - 53)
        ≤ 2 ^ 52 * 2 ^ (Nat.log2 k + 1 - 53) :=
          Nat.mul_le_mul_right _ (roundDiv_le_of_le (Nat.le_trans h hpower))
      _ ≤ q * 2 ^ x := Nat.le_trans hlow h

theorem ceilDiv_le {num den n : Nat} (h : num ≤ n * den) : ceilDiv num den ≤ n := by
  unfold ceilDiv
  rcases Nat.eq_zero_or_pos den with rfl | hden
  · simp
  · rw [← Nat.lt_succ_iff, Nat.div_lt_iff_lt_mul hden, Nat.succ_mul]
    omega

theorem scaled_roundedTo53_le {n m : Nat} (e : Int) (hn : n ≤ 2 ^ 53)
    (h : (scaled m e).1 ≤ (scaled m e).2) :
    (scaled (roundedTo53 (n * m)) e).1 ≤ n * (scaled (roundedTo53 (n * m)) e).2 := by
  unfold scaled at h ⊢
  split
  · rename_i he
    simp only [if_pos he] at h
    have hpow : 0 < 2 ^ e.toNat := Nat.two_pow_pos _
    have hm : m ≤ 1 := Nat.le_trans (Nat.le_mul_of_pos_right m hpow) h
    have hround : roundedTo53 (n * m) ≤ n * m * 2 ^ 0 :=
      roundedTo53_le_of_le (by simp) (Nat.le_trans (Nat.mul_le_mul_left n hm) (by omega))
    calc roundedTo53 (n * m) * 2 ^ e.toNat
        ≤ n * m * 2 ^ 0 * 2 ^ e.toNat := Nat.mul_le_mul_right _ hround
      _ = n * (m * 2 ^ e.toNat) := by rw [Nat.pow_zero, Nat.mul_one, Nat.mul_assoc]
      _ ≤ n * 1 := Nat.mul_le_mul_left n h
  · rename_i he
    simp only [if_neg he] at h
    exact roundedTo53_le_of_le (Nat.mul_le_mul_left n h) hn

/-- A share of so many things, rounded up, is at most all of them. -/
theorem ceilingOfProduct_le {x : Float} (h : isShare x) {n : Nat} (hn : n ≤ 2 ^ 53) :
    ∃ k ≤ n, ceilingOfProduct n x = .whole k := by
  have hsmall : n < 2 ^ 1023 := by
    refine Nat.lt_of_le_of_lt hn ?_
    rw [Nat.pow_lt_pow_iff_right Nat.one_lt_two]
    decide
  obtain ⟨k, hk⟩ := ceilingOfProduct_of_isShare h hsmall
  refine ⟨k, ?_, hk⟩
  unfold ceilingOfProduct at hk
  unfold isShare at h
  cases hx : Parts.of x with
  | nan => simp [hx] at h
  | infinite negative => simp [hx] at h
  | finite negative m e =>
      cases negative with
      | true => simp [hx] at h
      | false =>
          simp only [hx, Bool.and_eq_true, decide_eq_true_eq] at h hk
          split at hk
          · cases hk
          · cases hk
            exact ceilDiv_le (scaled_roundedTo53_le e hn h.2)

/-- A count that no float has is itself rounded, here to more than it is. -/
example : ceilingOfProduct (2 ^ 53 + 3) 1.0 = .whole (2 ^ 53 + 4) := by decide +kernel

end Clipboard.Decimal
