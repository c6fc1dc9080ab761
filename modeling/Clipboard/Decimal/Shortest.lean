import Clipboard.Decimal.Fixed

/-!
The shortest decimal text that reads back as the same binary number.
-/

namespace Clipboard.Decimal

/-- A quotient counted in units of `10 ^ k`. -/
def onGrid (num den : Nat) (k : Int) : Nat × Nat :=
  if 0 ≤ k then (num, den * 10 ^ k.toNat) else (num * 10 ^ (-k).toNat, den)

/-- The power of ten of the leading digit of a positive quotient. -/
def magnitude (num den : Nat) : Int :=
  if den ≤ num then ((toString (num / den)).length : Int) - 1
  else -(below 400 1 : Int)
where
  below : Nat → Nat → Nat
    | 0, j => j
    | steps + 1, j => if den ≤ num * 10 ^ j then j else below steps (j + 1)

/-- The interval of numbers that round to `m * 2 ^ e`, as multiples of `2 ^ (e - 2)`. The step
down is half as wide at a power of two. -/
structure Interval where
  low : Nat
  high : Nat
  closed : Bool

def Interval.of (m : Nat) (e : Int) : Interval where
  low := if m == 2 ^ 52 && (-1074 : Int) < e then 4 * m - 1 else 4 * m - 2
  high := 4 * m + 2
  closed := m % 2 == 0

/-- Whether `digits * 10 ^ k` lies in the interval. -/
def Interval.holds (i : Interval) (e : Int) (digits : Nat) (k : Int) : Bool :=
  let (n, d) := if 0 ≤ k then (digits * 10 ^ k.toNat, 1) else (digits, 10 ^ (-k).toNat)
  let (ln, ld) := scaled i.low (e - 2)
  let (hn, hd) := scaled i.high (e - 2)
  if i.closed then ln * d ≤ n * ld && n * hd ≤ hn * d
  else ln * d < n * ld && n * hd < hn * d

/-- The digits and the power of ten of their last place: the coarsest decimal grid with a point
in the interval, and on it the point nearest to the number. -/
def shortest (m : Nat) (e : Int) : Nat × Int :=
  let (num, den) := scaled m e
  let top := magnitude num den
  let i := Interval.of m e
  ((List.range 17).findSome? fun (n : Nat) =>
    let k := top - (n : Int)
    let (gn, gd) := onGrid num den k
    let down := gn / gd
    let near := roundDiv gn gd
    let far := if near == down then down + 1 else down
    if i.holds e near k then some (near, k)
    else if i.holds e far k then some (far, k)
    else none).getD (0, 0)

/-- Trailing zeros of the digits moved into the power of ten. -/
def dropZeros : Nat → Nat → Int → Nat × Int
  | 0, d, k => (d, k)
  | steps + 1, d, k => if d != 0 && d % 10 == 0 then dropZeros steps (d / 10) (k + 1) else (d, k)

/-- Positional from `0.0001` up to below `10 ^ 16`, with at least one place; otherwise with an
exponent of at least two digits. -/
def layout (digits : Nat) (k : Int) : String :=
  let (digits, k) := dropZeros 20 digits k
  let s := toString digits
  let cs := s.toList
  let top := k + (s.length : Int) - 1
  if -4 ≤ top && top < 16 then
    if 0 ≤ k then s ++ "".pushn '0' k.toNat ++ ".0"
    else if 0 ≤ top then
      .ofList (cs.take (top.toNat + 1)) ++ "." ++ .ofList (cs.drop (top.toNat + 1))
    else "0." ++ "".pushn '0' ((-top).toNat - 1) ++ s
  else
    .ofList (cs.take 1) ++ (if s.length == 1 then "" else "." ++ .ofList (cs.drop 1))
      ++ "e" ++ (if top < 0 then "-" else "+") ++ padded 2 top.natAbs

/-- The text of a finite number. -/
def finiteText (negative : Bool) (m : Nat) (e : Int) : String :=
  (if negative then "-" else "")
    ++ if m == 0 then "0.0" else let (digits, k) := shortest m e; layout digits k

end Clipboard.Decimal
