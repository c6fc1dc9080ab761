import Clipboard.Decimal.Binary

/-!
Numbers with a fixed count of decimal places.
-/

namespace Clipboard.Decimal

/-- The digits of `n`, filled up with zeros to `width`. -/
def padded (width n : Nat) : String :=
  let s := toString n
  "".pushn '0' (width - s.length) ++ s

/-- `n` units of the last place, written with `places` places. -/
def placed (places n : Nat) : String :=
  if places == 0 then toString n
  else toString (n / 10 ^ places) ++ "." ++ padded places (n % 10 ^ places)

/-- A number rounded to `places` decimal places. -/
def fixed (places : Nat) (x : Float) : String :=
  match Parts.of x with
  | .nan => "nan"
  | .infinite negative => if negative then "-inf" else "inf"
  | .finite negative m e =>
    let (num, den) := scaled (m * 10 ^ places) e
    (if negative then "-" else "") ++ placed places (roundDiv num den)

end Clipboard.Decimal
