import Clipboard.Decimal.Reader
import Clipboard.Json.Inspect
import Clipboard.Settings.Value

/-!
Values of files of settings as messages show them.
-/

namespace Clipboard

/-- A byte between quotes; one beyond ASCII is written in hexadecimal. -/
def Text.quotedByte (quote : Char) (b : UInt8) : List Char :=
  if b < 128 then quotedChar quote (Char.ofNat b.toNat) else '\\' :: 'x' :: hex 2 b.toNat

def Text.quotedBytes (bs : List UInt8) : List Char :=
  let quote := quoteFor (bs.map fun b => Char.ofNat b.toNat)
  'b' :: quote :: bs.flatMap (quotedByte quote) ++ [quote]

/-- A call with its arguments. -/
def Text.call (name : String) (arguments : List String) : String :=
  name ++ "(" ++ ", ".intercalate arguments ++ ")"

namespace Calendar

def Date.inspect (d : Date) : String :=
  Text.call "datetime.date" [toString d.year, toString d.month, toString d.day]

/-- An offset as whole days and the seconds and microseconds that are left. -/
def Offset.inspect (o : Offset) : String :=
  if o.micros == 0 then "datetime.timezone.utc"
  else
    let parts := [("days", o.micros.fdiv 86400000000),
      ("seconds", o.micros.fmod 86400000000 / 1000000), ("microseconds", o.micros.fmod 1000000)]
    let shown := (parts.filter (·.2 != 0)).map fun (name, n) => name ++ "=" ++ toString n
    Text.call "datetime.timezone" [Text.call "datetime.timedelta" shown]

def Moment.inspect (m : Moment) : String :=
  let fine := if m.time.micro != 0 then [m.time.second, m.time.micro]
    else if m.time.second != 0 then [m.time.second] else []
  let numbers := [m.date.year, m.date.month, m.date.day, m.time.hour, m.time.minute] ++ fine
  Text.call "datetime.datetime"
    (numbers.map toString ++ (m.offset.map fun o => "tzinfo=" ++ o.inspect).toList)

end Calendar

namespace Settings

namespace Scalar

def inspect : Scalar → String
  | null => "None"
  | bool b => if b then "True" else "False"
  | int n => toString n
  | real x => Json.inspectReal x
  | text s => Text.quotedString s
  | torn ps => .ofList (Text.quotedPoints ps)
  | date d => d.inspect
  | moment m => m.inspect
  | bytes bs => .ofList (Text.quotedBytes bs)

/-- A text as it is, a day or a moment in the form of the standard, any other value as messages show
it. -/
def asText : Scalar → String
  | text s => s
  | torn ps => .ofList (Text.CodePoint.shownChars ps)
  | date d => d.isoText
  | moment m => m.date.isoText ++ " " ++ m.time.isoText
  | s => s.inspect

/-- Whether this is a whole number with more digits than a text may show. -/
def isOverlong : Scalar → Bool
  | int n => 10 ^ Decimal.maxDigits ≤ n.natAbs
  | _ => false

end Scalar

namespace Value

mutual

def inspect : Value → String
  | scalar s => s.inspect
  | list xs => "[" ++ ", ".intercalate (inspectItems xs) ++ "]"
  | pair v w => Text.call "" [inspect v, inspect w]
  | set keys =>
    if keys.isEmpty then Text.call "set" []
    else "\x7b" ++ ", ".intercalate (keys.map (·.inspect)) ++ "\x7d"
  | object fields => "\x7b" ++ ", ".intercalate (inspectFields fields) ++ "\x7d"

def inspectItems : List Value → List String
  | [] => []
  | v :: vs => inspect v :: inspectItems vs

def inspectFields : Fields → List String
  | [] => []
  | (k, v) :: fields => (k.inspect ++ ": " ++ inspect v) :: inspectFields fields

end

def asText : Value → String
  | scalar s => s.asText
  | v => v.inspect

mutual

/-- Whether the value has a whole number that no text may show. -/
def isOverlong : Value → Bool
  | scalar s => s.isOverlong
  | list xs => areOverlong xs
  | pair v w => isOverlong v || isOverlong w
  | set keys => keys.any (·.isOverlong)
  | object fields => fieldsAreOverlong fields

def areOverlong : List Value → Bool
  | [] => false
  | v :: vs => isOverlong v || areOverlong vs

def fieldsAreOverlong : Fields → Bool
  | [] => false
  | (k, v) :: fields => k.isOverlong || isOverlong v || fieldsAreOverlong fields

end

end Value

end Settings

end Clipboard
