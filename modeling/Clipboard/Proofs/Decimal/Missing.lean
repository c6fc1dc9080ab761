import Mathlib
import Clipboard.Decimal.Reader

/-!
Where the missing number comes from. No digits give it, only its name.
-/

namespace Clipboard.Decimal

open Float.Model (UnpackedFloat Format)

/-! ## Results that are numbers -/

theorem isNaN_unpack_packComponents (spec : Format) (sign : UnpackedFloat.Sign)
    (e : BitVec spec.exponentBits) (m : BitVec spec.mantissaBitsWithoutImplicit) :
    (UnpackedFloat.unpack spec (UnpackedFloat.packComponents spec sign e m)).isNaN =
      decide (e = -1#_ ∧ m ≠ 0#_) := by
  unfold UnpackedFloat.unpack
  simp only [UnpackedFloat.unpackMantissa_packComponents, UnpackedFloat.unpackExponent_packComponents]
  split
  · rename_i he
    split
    · rename_i hm
      exact (decide_eq_false fun h => h.2 hm).symm
    · rename_i hm
      exact (decide_eq_true ⟨he, hm⟩).symm
  · rename_i he
    rw [decide_eq_false fun h => he h.1]
    split
    · split <;> rfl
    · rfl

theorem isNaN_unpack_pack (f : UnpackedFloat) : (Float.Model.pack f).unpack.isNaN = f.isNaN := by
  change (UnpackedFloat.unpack .binary64 (UnpackedFloat.pack .binary64 f)).isNaN = f.isNaN
  fun_cases UnpackedFloat.pack with
  | case1 => exact isNaN_unpack_packComponents ..
  | case2 s => exact isNaN_unpack_packComponents ..
  | case3 s => exact isNaN_unpack_packComponents ..
  | case4 s m e hm biasedExponent h =>
      rw [UnpackedFloat.packedInfinity, isNaN_unpack_packComponents]
      rfl
  | case5 s m e hm actualMantissaBits biasedExponent h =>
      have hne : BitVec.ofNat Format.binary64.exponentBits biasedExponent ≠ -1#_ := by
        intro heq
        have hnat : biasedExponent % 2 ^ 11 = 2047 := congrArg BitVec.toNat heq
        have hlt : biasedExponent + 1 < 2 ^ 11 := Nat.not_le.mp h
        omega
      rw [isNaN_unpack_packComponents, decide_eq_false fun h => hne h.1]
      rfl
  | case6 s m e hm actualMantissaBits biasedExponent h =>
      rw [isNaN_unpack_packComponents]
      rfl

theorem isNaN_roundWithAccuracy (spec : Format) (sign : UnpackedFloat.Sign) (m : Nat) (e : Int)
    (accuracy : UnpackedFloat.Accuracy) :
    (UnpackedFloat.roundWithAccuracy spec sign m e accuracy).isNaN = false := by
  unfold UnpackedFloat.roundWithAccuracy
  dsimp only
  split <;> rfl

/-- A finite number other than zero. -/
def isProper : UnpackedFloat → Bool
  | .finite .. => true
  | _ => false

theorem isNaN_mul {a b : UnpackedFloat} (ha : a.isNaN = false) (hb : isProper b) :
    (UnpackedFloat.mul .binary64 a b).isNaN = false := by
  cases b with
  | finite sign m e h =>
      cases a with
      | notANumber => cases ha
      | infinity s => rfl
      | zero s => rfl
      | finite s m' e' h' => exact isNaN_roundWithAccuracy ..
  | _ => cases hb

theorem isNaN_div {a b : UnpackedFloat} (ha : a.isNaN = false) (hb : isProper b) :
    (UnpackedFloat.div .binary64 a b).isNaN = false := by
  cases b with
  | finite sign m e h =>
      cases a with
      | notANumber => cases ha
      | infinity s => rfl
      | zero s => rfl
      | finite s m' e' h' => exact isNaN_roundWithAccuracy ..
  | _ => cases hb

theorem isNaN_ofScientific (m : Nat) (e : Int) :
    (UnpackedFloat.ofScientific .binary64 m e).isNaN = false := by
  unfold UnpackedFloat.ofScientific
  split
  · rfl
  split
  · rfl
  split
  · rfl
  split
  · exact isNaN_mul rfl rfl
  · exact isNaN_div rfl rfl

theorem isNaN_ofInt (n : Int) : (UnpackedFloat.ofInt .binary64 n).isNaN = false := by
  unfold UnpackedFloat.ofInt UnpackedFloat.normalize
  split
  · exact isNaN_roundWithAccuracy ..
  · rfl
  · exact isNaN_roundWithAccuracy ..

theorem isNaN_neg (x : Float) : (-x).isNaN = x.isNaN := by
  change (Float.Model.pack x.toModel.unpack.neg).unpack.isNaN = x.toModel.unpack.isNaN
  rw [isNaN_unpack_pack]
  cases x.toModel.unpack <;> rfl

theorem isProper_power : ∀ e, (h : e < Float.exactlyRepresentablePowersOfTen.size) →
    isProper Float.exactlyRepresentablePowersOfTen[e].toModel.unpack := by
  decide +kernel

theorem isNaN_scientific (m : Nat) (negative : Bool) (e : Nat) :
    (Float.ofScientific m negative e).isNaN = false := by
  have hwhole : (m.toUInt64.toFloat).toModel.unpack.isNaN = false :=
    (isNaN_unpack_pack _).trans (isNaN_ofInt _)
  unfold Float.ofScientific
  split
  · rename_i h
    have hpower := isProper_power e (by simp [Float.exactlyRepresentablePowersOfTen]; omega)
    dsimp only
    split
    · exact (isNaN_unpack_pack _).trans (isNaN_div hwhole hpower)
    · exact (isNaN_unpack_pack _).trans (isNaN_mul hwhole hpower)
  · exact (isNaN_unpack_pack _).trans (isNaN_ofScientific _ _)

theorem isNaN_realOf (digits : Nat) (exponent : Int) : (realOf digits exponent).isNaN = false := by
  unfold realOf
  split
  · decide +kernel
  split
  · decide +kernel
  split
  · exact isNaN_scientific ..
  · exact isNaN_scientific ..

theorem isNaN_ofInt? {n : Int} {x : Float} (h : ofInt? n = some x) : x.isNaN = false := by
  have hint : (Float.ofInt n).isNaN = false := by
    cases n with
    | ofNat n => exact isNaN_scientific n false 0
    | negSucc n => exact (isNaN_neg _).trans (isNaN_scientific _ false 0)
  simp only [ofInt?, Option.ite_none_left_eq_some, Option.some.injEq] at h
  rw [← h.2]
  exact hint

/-! ## Names -/

/-- The text names the missing number, with a sign or without. -/
def NamesMissing (cs : List Char) : Prop :=
  ∃ t, numeral? cs = some t ∧ String.ofList ((readSign t).2.map Char.toLower) = "nan"

theorem isNaN_readUnsigned? {cs : List Char} {x : Float} (h : readUnsigned? cs = some x) :
    x.isNaN = false := by
  simp only [readUnsigned?, Option.ite_none_left_eq_some, Option.some.injEq] at h
  rw [← h.2]
  exact isNaN_realOf ..

theorem isNaN_readReal?_iff {cs : List Char} {x : Float} (h : readReal? cs = some x) :
    x.isNaN ↔ NamesMissing cs := by
  obtain ⟨t, ht, hread⟩ := Option.bind_eq_some_iff.mp h
  have hname : NamesMissing cs ↔ String.ofList ((readSign t).2.map Char.toLower) = "nan" := by
    unfold NamesMissing
    simp only [ht, Option.some.injEq, exists_eq_left']
  have hsign {y : Float} (hy : some (if (readSign t).1 then -y else y) = some x) :
      x.isNaN = y.isNaN := by
    cases hy
    split
    · exact isNaN_neg y
    · rfl
  rw [hname]
  dsimp only at hread
  generalize String.ofList ((readSign t).2.map Char.toLower) = word at hread ⊢
  split at hread
  · rename_i hinf
    rw [hsign hread]
    refine iff_of_false (by decide +kernel) ?_
    rintro rfl
    exact absurd hinf (by decide)
  split at hread
  · rename_i hnan
    rw [hsign hread]
    exact iff_of_true (by decide +kernel) (eq_of_beq hnan)
  · rename_i hnan
    obtain ⟨y, hy, hx⟩ := Option.bind_eq_some_iff.mp hread
    rw [hsign hx, isNaN_readUnsigned? hy]
    refine iff_of_false Bool.false_ne_true fun heq => hnan ?_
    rw [heq]
    rfl

theorem NamesMissing.isSome_readReal? {cs : List Char} (h : NamesMissing cs) :
    (readReal? cs).isSome := by
  obtain ⟨t, ht, hword⟩ := h
  simp [readReal?, ht, hword]

end Clipboard.Decimal
