import Clipboard.Decimal.Reader

/-!
Whole numbers among the arguments of a command: the usual digits, perhaps with underscores between
them, and perhaps a point with nothing but zeros behind it.
-/

namespace Clipboard.Program

/-- Drops the zeros that follow the zero `last`, and underscores among them. A zero stays before a
point and where nothing else is. -/
def dropZeros? (last : Char) : List Char → Option (List Char)
  | [] => some [last]
  | c :: cs =>
    if c == '0' || c == '_' then dropZeros? c cs
    else if c.isDigit then some (c :: cs)
    else if c == '.' then some (last :: c :: cs)
    else none

/-- The number without zeros at its start. It has to start with a digit or a minus sign. -/
def withoutZeros? : List Char → Option (List Char)
  | '0' :: cs => dropZeros? '0' cs
  | c :: cs => if c.isDigit || c == '-' then some (c :: cs) else none
  | [] => none

/-- The number without a fraction of zeros. -/
def withoutFraction (cs : List Char) : List Char :=
  match Text.cutAt '.' cs with
  | (whole, some zeros) => if !zeros.isEmpty && zeros.all (· == '0') then whole else cs
  | (_, none) => cs

/-- Whether each underscore stands alone, and none at an end. -/
def hasLoneUnderscores (cs : List Char) : Bool :=
  cs.head? != some '_' && cs.getLast? != some '_' && !Text.hasPart ['_', '_'] cs

def withoutUnderscores (cs : List Char) : List Char :=
  if hasLoneUnderscores cs then cs.filter (· != '_') else cs

/-- Digits that do not start with a zero, unless it is the only one. -/
def readDigits? (cs : List Char) : Option Nat :=
  if cs.isEmpty || !cs.all Char.isDigit || Decimal.maxDigits < cs.length then none
  else if cs.head? == some '0' && cs != ['0'] then none
  else some (Decimal.digitsValue cs)

/-- The number that an argument is. -/
def readNumber? (arg : String) : Option Int := do
  let trimmed := Text.dropWhileEnd Decimal.isBlank (arg.toList.dropWhile Decimal.isBlank)
  let unsigned ← match trimmed with
    | '+' :: '-' :: _ => none
    | '+' :: cs => some cs
    | cs => some cs
  match withoutUnderscores (withoutFraction (← withoutZeros? unsigned)) with
  | '-' :: cs => return -((← readDigits? cs) : Int)
  | cs => return ((← readDigits? cs) : Int)

end Clipboard.Program
