import Clipboard.Decimal.Binary

/-!
Whole numbers from products of a whole number and a binary floating-point number, computed as the
floating-point product would be: rounded to 53 binary places.
-/

namespace Clipboard.Decimal

/-- `n` rounded to its 53 leading binary places; a half goes to the even neighbour. -/
def roundedTo53 (n : Nat) : Nat :=
  let extra := Nat.log2 n + 1 - 53
  roundDiv n (2 ^ extra) * 2 ^ extra

/-- The least whole number that is not below a quotient. -/
def ceilDiv (num den : Nat) : Nat := (num + den - 1) / den

inductive Ceiling
  | whole (n : Nat)
  | infinite
  | nan
  deriving DecidableEq, Repr

/-- `n * x` rounded up; what is below zero counts as zero. -/
def ceilingOfProduct (n : Nat) (x : Float) : Ceiling :=
  match Parts.of x with
  | .nan => .nan
  | .infinite _ => if n == 0 then .nan else .infinite
  | .finite negative m e =>
    let (num, den) := scaled (roundedTo53 (n * m)) e
    if den * 2 ^ 1024 ≤ num then .infinite
    else if negative then .whole 0
    else .whole (ceilDiv num den)

/-- Whether a number is above 0 and at most 1. -/
def isShare (x : Float) : Bool :=
  match Parts.of x with
  | .finite false m e => let (num, den) := scaled m e; 0 < num && num ≤ den
  | _ => false

end Clipboard.Decimal
