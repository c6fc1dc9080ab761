import Mathlib.Algebra.Ring.Int.Defs
import Mathlib.Data.Prod.Lex
import Clipboard.Proofs.Decimal.Order

/-!
Floating-point numbers on one scale. Apart from the missing number each has a rank, and numbers compare as
their ranks do, so that what holds of linear orders holds of numbers.
-/

namespace Clipboard.Decimal

open Float.Model (UnpackedFloat)

/-- What a number is compared by: its side of zero, infinity being beyond the finite numbers, then the exponent
and the significand, which count backwards below zero. -/
def rank : UnpackedFloat → ℤ ×ₗ ℤ ×ₗ ℤ
  | .notANumber => toLex (0, toLex (0, 0))
  | .zero _ => toLex (0, toLex (0, 0))
  | .infinity .positive => toLex (2, toLex (0, 0))
  | .infinity .negative => toLex (-2, toLex (0, 0))
  | .finite .positive m e _ => toLex (1, toLex (e, (m : ℤ)))
  | .finite .negative m e _ => toLex (-1, toLex (-e, -(m : ℤ)))

section

variable {a b : UnpackedFloat}

theorem compare_eq_lt_iff (ha : ¬a.isNaN) (hb : ¬b.isNaN) : a.compare b = some .lt ↔ rank a < rank b := by
  -- Only two finite numbers of one sign are compared by their components.
  rcases a with ⟨_ | _⟩ | _ | _ | ⟨_ | _, m, e, _⟩ <;>
    rcases b with ⟨_ | _⟩ | _ | _ | ⟨_ | _, m', e', _⟩ <;>
      first
        | exact absurd rfl ha
        | exact absurd rfl hb
        | exact iff_of_true rfl (by decide)
        | dsimp only [UnpackedFloat.compare, rank]
          simp [Prod.Lex.toLex_lt_toLex, Ordering.then_eq_lt, Ordering.then_eq_gt, compare_lt_iff_lt,
            compare_gt_iff_gt]

theorem compare_eq_eq_iff (ha : ¬a.isNaN) (hb : ¬b.isNaN) : a.compare b = some .eq ↔ rank a = rank b := by
  rcases a with ⟨_ | _⟩ | _ | _ | ⟨_ | _, m, e, _⟩ <;>
    rcases b with ⟨_ | _⟩ | _ | _ | ⟨_ | _, m', e', _⟩ <;>
      first
        | exact absurd rfl ha
        | exact absurd rfl hb
        | exact iff_of_true rfl rfl
        | dsimp only [UnpackedFloat.compare, rank]
          simp [Ordering.then_eq_eq]

end

/-! ## Numbers -/

/-- The rank of a number. -/
def rankOf (x : Float) : ℤ ×ₗ ℤ ×ₗ ℤ := rank x.toModel.unpack

section

variable {a b : Float} (ha : ¬a.isNaN) (hb : ¬b.isNaN)
include ha hb

theorem lt_iff_rankOf : a < b ↔ rankOf a < rankOf b :=
  lt_iff.trans (compare_eq_lt_iff ha hb)

theorem beq_iff_rankOf : a == b ↔ rankOf a = rankOf b := by
  change a.toModel.unpack.compare b.toModel.unpack == some .eq ↔ _
  rw [beq_iff_eq]
  exact compare_eq_eq_iff ha hb

theorem le_iff_rankOf : a ≤ b ↔ rankOf a ≤ rankOf b := by
  rw [← not_lt, ← lt_iff_rankOf hb ha]
  exact ⟨not_lt_of_le, le_of_not_lt hb ha⟩

end

end Clipboard.Decimal
