/-!
A binary floating-point number taken apart: sign, significand and power of two, and the exact
fraction it stands for.
-/

namespace Clipboard.Decimal

/-- Powers of numbers are the built-in ones, whatever else is known of the numbers. -/
@[default_instance 20000]
instance (priority := 1100) builtInPow {α : Type} [NatPow α] : Pow α Nat := instPowNat

inductive Parts
  /-- `significand * 2 ^ exponent`, negated if `negative`. -/
  | finite (negative : Bool) (significand : Nat) (exponent : Int)
  | infinite (negative : Bool)
  | nan

def Parts.ofBits (bits : UInt64) : Parts :=
  let n := bits.toNat
  let negative := n / 2 ^ 63 == 1
  let e : Nat := n / 2 ^ 52 % 2048
  let m : Nat := n % 2 ^ 52
  if e == 2047 then (if m == 0 then .infinite negative else .nan)
  else if e == 0 then .finite negative m (-1074)
  else .finite negative (2 ^ 52 + m) ((e : Int) - 1075)

def Parts.of (x : Float) : Parts := .ofBits x.toBits

/-- `n * 2 ^ e` as a numerator and a denominator. -/
def scaled (n : Nat) (e : Int) : Nat × Nat :=
  if 0 ≤ e then (n * 2 ^ e.toNat, 1) else (n, 2 ^ (-e).toNat)

/-- A quotient rounded to the nearest whole number; a half goes to the even neighbour. -/
def roundDiv (num den : Nat) : Nat :=
  let q := num / den
  let twice := 2 * (num % den)
  if twice < den then q else if den < twice then q + 1 else if q % 2 == 0 then q else q + 1

end Clipboard.Decimal
