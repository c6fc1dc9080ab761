import Clipboard.Text.Split

/-!
Reading numbers that people write: digits of any script, single underscores between digits, blanks
around the whole.
-/

namespace Clipboard.Decimal

def digitsValue (cs : List Char) : Nat := cs.foldl (fun n c => 10 * n + (c.toNat - 48)) 0

/-- The number of digits that a whole number may have. -/
def maxDigits : Nat := 4300

/-- Why a text is refused for its number of digits. -/
def tooLongMessage (digits : Nat) : String :=
  s!"Exceeds the limit ({maxDigits} digits) for integer string conversion: value has {digits} digits"
    ++ "; use sys.set_int_max_str_digits() to increase the limit"

/-- `digits * 10 ^ exponent` to the nearest floating-point number. -/
def realOf (digits : Nat) (exponent : Int) : Float :=
  if digits == 0 || exponent < -100000 then 0.0
  else if 100000 < exponent then 1.0 / 0.0
  else if exponent < 0 then Float.ofScientific digits true (-exponent).toNat
  else Float.ofScientific digits false exponent.toNat

/-- The floating-point number nearest to a whole number, if they reach that far. -/
def ofInt? (n : Int) : Option Float :=
  let x := Float.ofInt n
  if x.isInf then none else some x

/-- The exponent, if there is one with a digit. -/
def readExponent (cs : List Char) : Option Int × List Char :=
  let signed (negative : Bool) (ds : List Char) : Option Int × List Char :=
    let digits := ds.takeWhile Char.isDigit
    if digits.isEmpty then (none, cs)
    else
      let n : Int := digitsValue digits
      (some (if negative then -n else n), ds.dropWhile Char.isDigit)
  match cs with
  | e :: rest =>
    if e == 'e' || e == 'E' then
      match rest with
      | '-' :: ds => signed true ds
      | '+' :: ds => signed false ds
      | ds => signed false ds
    else (none, cs)
  | [] => (none, cs)

/-- Blanks around a number; the information separators are none. -/
def isBlank (c : Char) : Bool := Text.isSpace c && !(28 ≤ c.toNat && c.toNat < 32)

/-- A digit of any script as the usual one; other characters stay. -/
def plainDigit (c : Char) : Char :=
  match Text.digit? c with
  | some d => Char.ofNat (48 + d)
  | none => c

/-- The text without its underscores, if each stands between two digits; `before` says whether a
digit stands before. -/
def dropUnderscores? (before : Bool) : List Char → Option (List Char)
  | [] => some []
  | '_' :: cs => if before && cs.head?.any Char.isDigit then dropUnderscores? false cs else none
  | c :: cs => (dropUnderscores? c.isDigit cs).map (c :: ·)

/-- The characters of a number, ready to be read. -/
def numeral? (cs : List Char) : Option (List Char) :=
  dropUnderscores? false ((Text.dropWhileEnd isBlank (cs.dropWhile isBlank)).map plainDigit)

/-- A sign, if there is one, and what follows. -/
def readSign : List Char → Bool × List Char
  | '-' :: cs => (true, cs)
  | '+' :: cs => (false, cs)
  | cs => (false, cs)

inductive WholeFault
  /-- The text is no whole number. -/
  | notWhole
  | tooLong (digits : Nat)
  deriving DecidableEq, Repr

/-- The whole number that a text is. -/
def readWhole (cs : List Char) : Except WholeFault Int :=
  match numeral? cs with
  | none => .error .notWhole
  | some t =>
    let (negative, digits) := readSign t
    if digits.isEmpty || !digits.all Char.isDigit then .error .notWhole
    else if maxDigits < digits.length then .error (.tooLong digits.length)
    else
      let n : Int := digitsValue digits
      .ok (if negative then -n else n)

/-- A number without sign: digits, perhaps a point, perhaps an exponent. -/
def readUnsigned? (cs : List Char) : Option Float :=
  let whole := cs.takeWhile Char.isDigit
  let rest := cs.dropWhile Char.isDigit
  let (fraction, rest) := match rest with
    | '.' :: r => (r.takeWhile Char.isDigit, r.dropWhile Char.isDigit)
    | r => ([], r)
  let (exponent, rest) := readExponent rest
  if (whole.isEmpty && fraction.isEmpty) || !rest.isEmpty then none
  else some (realOf (digitsValue (whole ++ fraction)) (exponent.getD 0 - fraction.length))

/-- The number that a text is; infinity and the missing number have names. -/
def readReal? (cs : List Char) : Option Float := do
  let t ← numeral? cs
  let (negative, body) := readSign t
  let word := String.ofList (body.map Char.toLower)
  let x ← if word == "inf" || word == "infinity" then some (1.0 / 0.0)
    else if word == "nan" then some (0.0 / 0.0)
    else readUnsigned? body
  return if negative then -x else x

end Clipboard.Decimal
