import Clipboard.Settings.Inspect
import Clipboard.Text.Case

/-!
Settings from values: whole numbers, numbers, yes or no, and texts. A text or bytes may stand where
a number is wanted, and any value where a text is wanted.
-/

namespace Clipboard.Settings

inductive ConvertFault
  /-- A value that is no number at all. -/
  | notNumber
  | notWhole (quoted : List Char)
  | tooLong (digits : Nat)
  | notReal (quoted : List Char)
  /-- A missing number where a whole one is wanted. -/
  | wholeOfNan
  | wholeOfInfinity
  /-- A whole number beyond all floating-point numbers. -/
  | tooLarge
  /-- A whole number with too many digits where a text is wanted. -/
  | overlong

def ConvertFault.message : ConvertFault → String
  | notNumber => "a number is required"
  | notWhole quoted => "invalid literal for int() with base 10: " ++ .ofList (quoted.take 200)
  | tooLong digits => Decimal.tooLongMessage digits
  | notReal quoted => "could not convert string to float: " ++ .ofList quoted
  | wholeOfNan => "cannot convert float NaN to integer"
  | wholeOfInfinity => "cannot convert float infinity to integer"
  | tooLarge => "int too large to convert to float"
  | overlong => s!"Exceeds the limit ({Decimal.maxDigits} digits) for integer string conversion"
    ++ "; use sys.set_int_max_str_digits() to increase the limit"

/-- Bytes as the characters of a number. -/
def numeralOf? (bs : List UInt8) : Option (List Char) :=
  if bs.all (· < 128) then some (bs.map fun b => Char.ofNat b.toNat) else none

/-- The whole number that characters are, if any; `quoted` is how a message shows them. -/
def readWhole (cs : Option (List Char)) (quoted : List Char) : Except ConvertFault Int :=
  match cs.elim (.error .notWhole) Decimal.readWhole with
  | .ok n => .ok n
  | .error .notWhole => .error (.notWhole quoted)
  | .error (.tooLong digits) => .error (.tooLong digits)

/-- The number that characters are, if any. -/
def readReal (cs : Option (List Char)) (quoted : List Char) : Except ConvertFault Float :=
  match cs.bind Decimal.readReal? with
  | some x => .ok x
  | none => .error (.notReal quoted)

/-- A whole number; fractions are cut off. -/
def toWhole : Value → Except ConvertFault Int
  | .scalar (.bool b) => .ok (if b then 1 else 0)
  | .scalar (.int n) => .ok n
  | .scalar (.real x) => match Decimal.Parts.of x with
    | .nan => .error .wholeOfNan
    | .infinite _ => .error .wholeOfInfinity
    | .finite negative m e =>
      let (num, den) := Decimal.scaled m e
      let n : Int := (num / den : Nat)
      .ok (if negative then -n else n)
  | .scalar (.text s) => readWhole (some s.toList) (Text.quoted s.toList)
  | .scalar (.torn ps) => readWhole none (Text.quotedPoints ps)
  | .scalar (.bytes bs) => readWhole (numeralOf? bs) (Text.quotedBytes (bs.take 200))
  | _ => .error .notNumber

def toReal : Value → Except ConvertFault Float
  | .scalar (.bool b) => .ok (if b then 1.0 else 0.0)
  | .scalar (.int n) => match Decimal.ofInt? n with
    | some x => .ok x
    | none => .error .tooLarge
  | .scalar (.real x) => .ok x
  | .scalar (.text s) => readReal (some s.toList) (Text.quoted s.toList)
  | .scalar (.torn ps) => readReal none (Text.quotedPoints ps)
  | .scalar (.bytes bs) => readReal (numeralOf? bs) (Text.quotedBytes bs)
  | _ => .error .notNumber

/-- Texts that mean yes. -/
def yesTexts : List String := ["1", "true", "yes", "on"]

def saysYes (text : String) : Bool := yesTexts.contains (Text.lowerString (Text.trimString text))

/-- Yes or no: a text has to mean yes, any other value to be present. -/
def toBool : Value → Bool
  | .scalar (.text s) => saysYes s
  | .scalar (.torn _) => false
  | v => v.isPresent

def toText (v : Value) : Except ConvertFault String :=
  if v.isOverlong then .error .overlong else .ok v.asText

end Clipboard.Settings
