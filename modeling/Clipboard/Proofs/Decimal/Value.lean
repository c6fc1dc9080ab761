import Mathlib.Algebra.Order.Field.Basic
import Mathlib.Data.Rat.Cast.Order
import Clipboard.Decimal.Ceiling

/-!
The fractions that floating-point numbers stand for. A share is a number above 0 and at most 1.
-/

namespace Clipboard.Decimal

/-- The fraction that a finite number stands for. -/
def Parts.value? : Parts → Option ℚ
  | finite negative m e => some ((if negative then -1 else 1) * (m * 2 ^ e))
  | infinite _ => none
  | nan => none

theorem scaled_den_pos (m : Nat) (e : Int) : 0 < (scaled m e).2 := by
  unfold scaled
  split
  · exact Nat.one_pos
  · exact Nat.two_pow_pos _

theorem scaled_value (m : Nat) (e : Int) : ((scaled m e).1 : ℚ) / (scaled m e).2 = m * 2 ^ e := by
  unfold scaled
  split
  · rename_i h
    obtain ⟨k, rfl⟩ := Int.eq_ofNat_of_zero_le h
    simp
  · rename_i h
    obtain ⟨k, hk⟩ := Int.eq_ofNat_of_zero_le (show 0 ≤ -e by omega)
    obtain rfl : e = -k := by omega
    simp [div_eq_mul_inv]

theorem isShare_iff {x : Float} :
    isShare x ↔ ∃ q, (Parts.of x).value? = some q ∧ 0 < q ∧ q ≤ 1 := by
  unfold isShare
  cases Parts.of x with
  | nan => simp [Parts.value?]
  | infinite negative => simp [Parts.value?]
  | finite negative m e =>
      cases negative with
      | true =>
          have hnot_pos : ¬(0 : ℚ) < -(m * 2 ^ e) := by
            rw [not_lt, neg_nonpos]
            exact mul_nonneg m.cast_nonneg (zpow_nonneg zero_le_two e)
          simp [Parts.value?, hnot_pos]
      | false =>
          have hden : (0 : ℚ) < (scaled m e).2 := by exact_mod_cast scaled_den_pos m e
          have hvalue := scaled_value m e
          simp only [Parts.value?, Bool.false_eq_true, if_false, one_mul, Option.some.injEq,
            exists_eq_left', Bool.and_eq_true, decide_eq_true_eq]
          rw [← hvalue, div_le_one hden, div_pos_iff_of_pos_right hden]
          norm_cast

end Clipboard.Decimal
