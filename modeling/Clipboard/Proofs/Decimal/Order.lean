import Clipboard.Decimal.Reader

/-!
The order of floating-point numbers. Any two of them compare, in one way or another, but the missing number,
which compares with none.
-/

namespace Clipboard.Decimal

open Float.Model (UnpackedFloat)

/-! ## Comparing -/

theorem compare_eq_none_iff (a b : UnpackedFloat) : a.compare b = none ↔ a.isNaN ∨ b.isNaN := by
  rcases a with ⟨_ | _⟩ | _ | _ | ⟨_ | _, m, e, _⟩ <;>
    rcases b with ⟨_ | _⟩ | _ | _ | ⟨_ | _, m', e', _⟩ <;>
      first
        | exact iff_of_true rfl (.inl rfl)
        | exact iff_of_true rfl (.inr rfl)
        | exact iff_of_false (Option.some_ne_none _) (by rintro (h | h) <;> cases h)

theorem compare_swap (a b : UnpackedFloat) : b.compare a = (a.compare b).map Ordering.swap := by
  have hfinite (e e' : Int) (m m' : Nat) : (compare e' e).then (compare m' m) =
      ((compare e e').then (compare m m')).swap := by
    have he : compare e' e = (compare e e').swap := Std.OrientedCmp.eq_swap
    have hm : compare m' m = (compare m m').swap := Std.OrientedCmp.eq_swap
    rw [Ordering.swap_then, he, hm]
  -- Only two finite numbers of one sign are compared by their components.
  rcases a with ⟨_ | _⟩ | _ | _ | ⟨_ | _, m, e, _⟩ <;>
    rcases b with ⟨_ | _⟩ | _ | _ | ⟨_ | _, m', e', _⟩ <;>
      first
        | rfl
        | exact congrArg some (hfinite e e' m m')
        | exact congrArg (some ·.swap) (hfinite e e' m m')

/-! ## Less, and at most -/

section

variable {a b : Float}

theorem lt_iff : a < b ↔ a.toModel.unpack.compare b.toModel.unpack = some .lt := by
  change decide (a.toModel.lt b.toModel = true) = true ↔ _
  rw [decide_eq_true_iff]
  exact beq_iff_eq

theorem le_iff :
    a ≤ b ↔ ∃ order, a.toModel.unpack.compare b.toModel.unpack = some order ∧ order.isLE := by
  change decide (a.toModel.le b.toModel = true) = true ↔ _
  rw [decide_eq_true_iff]
  exact Option.any_eq_true _ _

theorem not_isNaN_of_compare {order : Ordering}
    (h : a.toModel.unpack.compare b.toModel.unpack = some order) : ¬a.isNaN ∧ ¬b.isNaN := by
  rw [← not_or]
  intro hnan
  rw [(compare_eq_none_iff _ _).mpr hnan] at h
  cases h

theorem not_isNaN_of_lt (h : a < b) : ¬a.isNaN ∧ ¬b.isNaN :=
  not_isNaN_of_compare (lt_iff.mp h)

theorem not_isNaN_of_le (h : a ≤ b) : ¬a.isNaN ∧ ¬b.isNaN := by
  obtain ⟨order, horder, -⟩ := le_iff.mp h
  exact not_isNaN_of_compare horder

theorem le_of_not_lt (ha : ¬a.isNaN) (hb : ¬b.isNaN) (h : ¬a < b) : b ≤ a := by
  rw [lt_iff] at h
  rw [le_iff, compare_swap a.toModel.unpack]
  cases hcompare : a.toModel.unpack.compare b.toModel.unpack with
  | none => exact absurd ((compare_eq_none_iff _ _).mp hcompare) (not_or.mpr ⟨ha, hb⟩)
  | some order =>
      refine ⟨order.swap, rfl, ?_⟩
      cases order with
      | lt => exact absurd hcompare h
      | eq => rfl
      | gt => rfl

theorem not_lt_of_le (h : b ≤ a) : ¬a < b := by
  rw [lt_iff, compare_swap b.toModel.unpack]
  obtain ⟨order, horder, hle⟩ := le_iff.mp h
  rw [horder]
  cases order with
  | lt => simp
  | eq => simp
  | gt => cases hle

end

end Clipboard.Decimal
