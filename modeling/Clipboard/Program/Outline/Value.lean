import Clipboard.Json.Parser
import Clipboard.Settings.Value

/-!
Values that stand on one line of an outline: plain words, quoted texts, and lists and objects in
brackets. Days and moments are read as texts.
-/

namespace Clipboard.Program.Outline

open Settings (Fields Scalar Value)
open Text

/-! ## Plain words -/

def absentWords : List String := ["", "~", "null", "Null", "NULL"]

def yesWords : List String := ["yes", "Yes", "YES", "true", "True", "TRUE", "on", "On", "ON"]

def noWords : List String := ["no", "No", "NO", "false", "False", "FALSE", "off", "Off", "OFF"]

/-- The number with these digits; there has to be one. -/
def digitsIn? (base : Nat) (cs : List Char) : Option Nat := do
  let digits ← cs.mapM Json.hexValue?
  if digits.isEmpty || digits.any (base ≤ ·) then none
  else some (digits.foldl (fun n d => n * base + d) 0)

/-- The places to base 60 behind a first number. -/
def sixtieths? (first : Nat) (places : List (List Char)) : Option Nat := do
  let places ← places.mapM fun p => if 2 < p.length then none else digitsIn? 10 p
  if places.any (60 ≤ ·) then none else some (places.foldl (fun n d => n * 60 + d) first)

/-- The whole number without sign that a word is. Underscores do not count, a zero in front tells
the base, and colons part the places to base 60. -/
def magnitude? (cs : List Char) : Option Nat :=
  let bare (cs : List Char) := cs.filter (· != '_')
  match cs with
  | '_' :: _ => none
  | '0' :: 'b' :: digits => digitsIn? 2 (bare digits)
  | '0' :: 'x' :: digits => digitsIn? 16 (bare digits)
  | '0' :: digits => digitsIn? 8 ('0' :: bare digits)
  | _ => match pieces (· == ':') cs with
    | [] => none
    | first :: places => (digitsIn? 10 (bare first)).bind (sixtieths? · places)

def whole? (cs : List Char) : Option Int :=
  let (negative, digits) := Decimal.readSign cs
  (magnitude? digits).map fun n => if negative then -(n : Int) else n

/-- Whether this is an exponent with its sign, or nothing. -/
def isExponent : List Char → Bool
  | [] => true
  | e :: sign :: d :: digits =>
    (e == 'e' || e == 'E') && (sign == '-' || sign == '+') && (d :: digits).all Char.isDigit
  | _ => false

/-- The number with a point that a word is. -/
def real? (cs : List Char) : Option Float :=
  let (negative, body) := Decimal.readSign cs
  let word := String.ofList body
  let isPlace (c : Char) := c.isDigit || c == '_'
  let before := body.takeWhile isPlace
  if [".inf", ".Inf", ".INF"].contains word then some (if negative then -1.0 / 0.0 else 1.0 / 0.0)
  else if [".nan", ".NaN", ".NAN"].contains (String.ofList cs) then some (0.0 / 0.0)
  else match body.dropWhile isPlace with
    | '.' :: rest =>
      let begins := match before with
        | [] => cs.head? == some '.' && rest.head?.any Char.isDigit
        | d :: _ => d.isDigit
      if begins && isExponent (rest.dropWhile isPlace) then
        Decimal.readReal? (cs.filter (· != '_'))
      else none
    | _ => none

/-- A value without quotes: nothing, yes or no, a number, or a text. -/
def plain (cs : List Char) : Scalar :=
  let word := String.ofList cs
  if absentWords.contains word then .null
  else if yesWords.contains word then .bool true
  else if noWords.contains word then .bool false
  else match whole? cs, real? cs with
    | some n, _ => .int n
    | none, some x => .real x
    | none, none => .text word

/-! ## Quoted texts -/

/-- The text up to the closing quote, and what follows; two quotes stand for one. -/
def readSingle : List Char → Option (List Char × List Char)
  | [] => none
  | '\'' :: '\'' :: cs => (readSingle cs).map fun (t, rest) => ('\'' :: t, rest)
  | '\'' :: cs => some ([], cs)
  | c :: cs => (readSingle cs).map fun (t, rest) => (c :: t, rest)

/-- The character that a letter behind a backslash stands for. -/
def escape? : Char → Option Char
  | '0' => some '\x00'
  | 'a' => some '\x07'
  | 'v' => some '\x0b'
  | 'e' => some '\x1b'
  | ' ' => some ' '
  | 'N' => some '\x85'
  | '_' => some '\xa0'
  | 'L' => some '\u2028'
  | 'P' => some '\u2029'
  | c => Json.plainEscape? c

def hexChar? (digits : List Char) : Option Char := (digitsIn? 16 digits).map Char.ofNat

/-- The text up to the closing quote, and what follows; a backslash begins an escape. -/
def readDouble : List Char → Option (List Char × List Char)
  | [] => none
  | '"' :: cs => some ([], cs)
  | '\\' :: 'x' :: a :: b :: cs => do
    let (t, rest) ← readDouble cs
    return ((← hexChar? [a, b]) :: t, rest)
  | '\\' :: 'u' :: a :: b :: c :: d :: cs => do
    let (t, rest) ← readDouble cs
    return ((← hexChar? [a, b, c, d]) :: t, rest)
  | '\\' :: c :: cs => do
    let (t, rest) ← readDouble cs
    return ((← escape? c) :: t, rest)
  | c :: cs => (readDouble cs).map fun (t, rest) => (c :: t, rest)

/-- A text in quotes, and what follows. -/
def readQuoted? : List Char → Option (List Char × List Char)
  | '"' :: cs => readDouble cs
  | '\'' :: cs => readSingle cs
  | _ => none

/-! ## Lists and objects in brackets -/

/-- A field before others; of equal keys the last one counts. -/
def addField (key : Scalar) (v : Value) (fields : Fields) : Fields :=
  if (Settings.lookup? key fields).isSome then fields else (key, v) :: fields

def skipBlanks (cs : List Char) : List Char := cs.dropWhile (· == ' ')

def isBracket (c : Char) : Bool := [',', '[', ']', '{', '}'].contains c

/-- A word in brackets, and what follows; a colon ends it if a blank or a bracket comes next. -/
def readWord : List Char → List Char × List Char
  | [] => ([], [])
  | c :: cs =>
    if isBracket c || (c == ':' && cs.head?.all fun d => d == ' ' || isBracket d) then ([], c :: cs)
    else ((c :: (readWord cs).1), (readWord cs).2)

/-- A value without parts in brackets, and what follows. -/
def readScalar? (cs : List Char) : Option (Scalar × List Char) :=
  match cs.head? with
  | some '"' | some '\'' => (readQuoted? cs).map fun (t, rest) => (.text (.ofList t), rest)
  | _ => some (plain (trim (readWord cs).1), (readWord cs).2)

mutual

/-- The value in front, and what follows; `fuel` bounds the characters. -/
def readValue? (fuel : Nat) (cs : List Char) : Option (Value × List Char) :=
  match fuel, cs with
  | 0, _ => none
  | fuel + 1, '[' :: cs => (readMembers? fuel (skipBlanks cs)).map fun (vs, rest) => (.list vs, rest)
  | fuel + 1, '{' :: cs =>
    (readFields? fuel (skipBlanks cs)).map fun (fs, rest) => (.object fs, rest)
  | _, cs => (readScalar? cs).map fun (s, rest) => (.scalar s, rest)

/-- The members of a list up to its bracket. -/
def readMembers? (fuel : Nat) (cs : List Char) : Option (List Value × List Char) :=
  match fuel, cs with
  | 0, _ => none
  | _, ']' :: cs => some ([], cs)
  | fuel + 1, cs => do
    let (v, rest) ← readValue? fuel cs
    match skipBlanks rest with
    | ',' :: rest =>
      let (vs, rest) ← readMembers? fuel (skipBlanks rest)
      return (v :: vs, rest)
    | ']' :: rest => return ([v], rest)
    | _ => none

/-- The fields of an object up to its bracket; a key alone has no value. -/
def readFields? (fuel : Nat) (cs : List Char) : Option (Fields × List Char) :=
  match fuel, cs with
  | 0, _ => none
  | _, '}' :: cs => some ([], cs)
  | fuel + 1, cs => do
    let (key, rest) ← readScalar? cs
    let (v, rest) ← match skipBlanks rest with
      | ':' :: rest => readValue? fuel (skipBlanks rest)
      | rest => some (.scalar .null, rest)
    match skipBlanks rest with
    | ',' :: rest =>
      let (fields, rest) ← readFields? fuel (skipBlanks rest)
      return (addField key v fields, rest)
    | '}' :: rest => return ([(key, v)], rest)
    | _ => none

end

/-! ## The end of a line -/

/-- Whether nothing but a comment is here. -/
def isSilent (cs : List Char) : Bool := (skipBlanks cs).head?.all (· == '#')

/-- The text up to a comment, which is a `#` behind a blank. -/
def uncommented : List Char → List Char
  | [] => []
  | ' ' :: '#' :: _ => []
  | c :: cs => c :: uncommented cs

/-- Whether a colon in the text would make it a key. -/
def holdsKey : List Char → Bool
  | [] => false
  | ':' :: cs => cs.head?.all (· == ' ') || holdsKey cs
  | _ :: cs => holdsKey cs

/-- The value with which a line ends. -/
def lineValue? (cs : List Char) : Option Value :=
  match cs with
  | [] | '#' :: _ => some (.scalar .null)
  | c :: _ =>
    if ['"', '\'', '[', '{'].contains c then
      match readValue? (cs.length + 1) cs with
      | some (v, rest) => if isSilent rest then some v else none
      | none => none
    else if "|>&*!%@".toList.contains c || holdsKey (uncommented cs) then none
    else some (.scalar (plain (trim (uncommented cs))))

end Clipboard.Program.Outline
