import Clipboard.Json.Basic
import Clipboard.Decimal.Reader

/-!
Reading a value from text. A fault carries the place at which reading stopped.
-/

namespace Clipboard.Json

open Text (CodePoint)
open Decimal (digitsValue realOf readExponent maxDigits)

inductive Fault
  | byteOrderMark
  | noValue
  | noKey
  | noColon
  | noComma
  | extraData
  | unclosedText
  | controlCharacter
  | badEscape
  | badCodePoint
  /-- A whole number with more digits than are read. -/
  | longNumber (digits : Nat)
  /-- Lists and objects nested beyond the limit. -/
  | tooDeep
  deriving DecidableEq, Repr

/-- A fault and the number of characters from there to the end of the text. -/
abbrev Failure := Fault × Nat

abbrev Reader (α : Type) := List Char → Except Failure (α × List Char)

def failAt {α : Type} (fault : Fault) (rest : List Char) : Except Failure α :=
  .error (fault, rest.length)

def isGap (c : Char) : Bool := c == ' ' || c == '\t' || c == '\n' || c == '\r'

def skipGaps (cs : List Char) : List Char := cs.dropWhile isGap

/-! ## Texts -/

def hexValue? (c : Char) : Option Nat :=
  if c.isDigit then some (c.toNat - 48)
  else if 'a' ≤ c && c ≤ 'f' then some (c.toNat - 87)
  else if 'A' ≤ c && c ≤ 'F' then some (c.toNat - 55)
  else none

/-- Four hexadecimal digits. -/
def hexUnit? : List Char → Option Nat
  | [a, b, c, d] => do
    return ((← hexValue? a) * 16 + (← hexValue? b)) * 256 + (← hexValue? c) * 16 + (← hexValue? d)
  | _ => none

def isHighUnit (n : Nat) : Bool := 0xd800 ≤ n && n < 0xdc00

def isLowUnit (n : Nat) : Bool := 0xdc00 ≤ n && n < 0xe000

/-- The code point after a backslash and a `u`. Two units may form a pair. More text has to follow
the digits. -/
def readCodePoint (cs : List Char) : Except Failure (CodePoint × List Char) :=
  if cs.length ≤ 4 then .error (.badCodePoint, cs.length + 1)
  else match hexUnit? (cs.take 4) with
    | none => .error (.badCodePoint, cs.length + 1)
    | some high =>
      match isHighUnit high && decide (10 < cs.length), cs.drop 4 with
      | true, '\\' :: 'u' :: more =>
        match hexUnit? (more.take 4) with
        | none => .error (.badCodePoint, more.length + 1)
        | some low =>
          if isLowUnit low then
            .ok (.char (.ofNat (0x10000 + (high - 0xd800) * 1024 + (low - 0xdc00))), more.drop 4)
          else .ok (.ofUnit high, cs.drop 4)
      | _, rest => .ok (.ofUnit high, rest)

def plainEscape? : Char → Option Char
  | '"' => some '"'
  | '\\' => some '\\'
  | '/' => some '/'
  | 'b' => some '\x08'
  | 'f' => some '\x0c'
  | 'n' => some '\n'
  | 'r' => some '\r'
  | 't' => some '\t'
  | _ => none

/-- The code points up to the closing quote; `opened` counts from the opening quote to the end. -/
def readPoints (opened : Nat) : Nat → List CodePoint → Reader (List CodePoint)
  | 0, _, _ => .error (.unclosedText, opened)
  | fuel + 1, acc, cs => match cs with
    | [] => .error (.unclosedText, opened)
    | '"' :: rest => .ok (acc.reverse, rest)
    | '\\' :: rest => match rest with
      | [] => .error (.unclosedText, opened)
      | 'u' :: digits => do
        let (p, rest) ← readCodePoint digits
        readPoints opened fuel (p :: acc) rest
      | c :: more => match plainEscape? c with
        | none => failAt .badEscape cs
        | some e => readPoints opened fuel (.char e :: acc) more
    | c :: rest =>
      if c.toNat < 32 then failAt .controlCharacter cs
      else readPoints opened fuel (.char c :: acc) rest

/-- The text behind an opening quote. -/
def readText : Reader (List CodePoint) := fun cs =>
  readPoints (cs.length + 1) (cs.length + 1) [] cs

/-! ## Numbers -/

/-- The digits of a fraction, if a point and a digit follow. -/
def readFraction (cs : List Char) : List Char × List Char :=
  match cs with
  | '.' :: c :: rest =>
    if c.isDigit then (c :: rest.takeWhile Char.isDigit, rest.dropWhile Char.isDigit) else ([], cs)
  | _ => ([], cs)

/-- A number; `start` is the text from its sign on. -/
def readNumber (start : List Char) (negative : Bool) (cs : List Char) :
    Except Failure (Json × List Char) :=
  let whole := match cs with
    | '0' :: _ => ['0']
    | _ => cs.takeWhile Char.isDigit
  if whole.isEmpty then failAt .noValue start
  else
    let rest := cs.drop whole.length
    let (fraction, rest) := readFraction rest
    let (exponent, rest) := readExponent rest
    if fraction.isEmpty && exponent.isNone then
      if maxDigits < whole.length then failAt (.longNumber whole.length) start
      else
        let n : Int := digitsValue whole
        .ok (int (if negative then -n else n), rest)
    else
      let x := realOf (digitsValue (whole ++ fraction)) (exponent.getD 0 - fraction.length)
      .ok (real (if negative then -x else x), rest)

/-! ## Lists and objects -/

/-- The items of a list, from the first one on. -/
def readItems (value : Reader Json) : Nat → List Json → Reader (List Json)
  | 0, _, cs => failAt .noValue cs
  | fuel + 1, acc, cs => do
    let (v, rest) ← value cs
    match skipGaps rest with
    | ']' :: rest => return ((v :: acc).reverse, rest)
    | ',' :: rest => readItems value fuel (v :: acc) (skipGaps rest)
    | rest => failAt .noComma rest

/-- The fields of an object, from the first key on. A key that occurs again replaces the value; in
a key halves of pairs are replaced. -/
def readFields (value : Reader Json) :
    Nat → List (String × Json) → Reader (List (String × Json))
  | 0, _, cs => failAt .noKey cs
  | fuel + 1, acc, cs => match cs with
    | '"' :: key => do
      let (key, rest) ← readText key
      match skipGaps rest with
      | ':' :: rest =>
        let (v, rest) ← value (skipGaps rest)
        let acc := setField (.ofList (CodePoint.shownChars key)) v acc
        match skipGaps rest with
        | '}' :: rest => return (acc, rest)
        | ',' :: rest => readFields value fuel acc (skipGaps rest)
        | rest => failAt .noComma rest
      | rest => failAt .noColon rest
    | _ => failAt .noKey cs

/-- The text behind `word`, if it follows. -/
def after? (word : String) (cs : List Char) : Option (List Char) :=
  if word.toList.isPrefixOf cs then some (cs.drop word.length) else none

def words : List (String × Json) := [
  ("null", null), ("true", bool true), ("false", bool false), ("NaN", real (0.0 / 0.0)),
  ("Infinity", real (1.0 / 0.0)), ("-Infinity", real (-1.0 / 0.0))]

/-- How deep lists and objects may be nested. A thousand calls may be in progress at a time, and each level
takes one; some twenty are taken where a stored text or a reply is read, a few more or less from one caller
to another. -/
def maxDepth : Nat := 980

/-- One value; `depth` more levels may be opened. -/
def readValue : Nat → Reader Json
  | depth, cs => match cs with
    | [] => failAt .noValue cs
    | '"' :: rest => do
      let (points, rest) ← readText rest
      return (ofPoints points, rest)
    | '[' :: rest => match depth with
      | 0 => failAt .tooDeep cs
      | depth + 1 => match skipGaps rest with
        | ']' :: rest => .ok (list [], rest)
        | rest => do
          let (xs, rest) ← readItems (readValue depth) (rest.length + 1) [] rest
          return (list xs, rest)
    | '\x7b' :: rest => match depth with
      | 0 => failAt .tooDeep cs
      | depth + 1 => match skipGaps rest with
        | '\x7d' :: rest => .ok (object [], rest)
        | rest => do
          let (fields, rest) ← readFields (readValue depth) (rest.length + 1) [] rest
          return (object fields, rest)
    | c :: rest =>
      match words.findSome? fun (word, v) => (after? word cs).map (v, ·) with
      | some r => .ok r
      | none => if c == '-' then readNumber cs true rest else readNumber cs false cs

/-- The value that the whole text is. -/
def parse (cs : List Char) : Except Failure Json :=
  if cs.head? == some '\ufeff' then failAt .byteOrderMark cs
  else do
    let (v, rest) ← readValue maxDepth (skipGaps cs)
    let rest := skipGaps rest
    if rest.isEmpty then return v else failAt .extraData rest

/-! ## Messages -/

/-- What a fault says, without its place. -/
def Fault.message : Fault → String
  | byteOrderMark => "Unexpected UTF-8 BOM (decode using utf-8-sig)"
  | noValue => "Expecting value"
  | noKey => "Expecting property name enclosed in double quotes"
  | noColon => "Expecting ':' delimiter"
  | noComma => "Expecting ',' delimiter"
  | extraData => "Extra data"
  | unclosedText => "Unterminated string starting at"
  | controlCharacter => "Invalid control character at"
  | badEscape => "Invalid \\escape"
  | badCodePoint => "Invalid \\uXXXX escape"
  | longNumber n => Decimal.tooLongMessage n
  | tooDeep => "maximum recursion depth exceeded"

/-- The line and column of a place, both from 1. -/
def placeOf (passed : List Char) : Nat × Nat :=
  (passed.count '\n' + 1, (passed.reverse.takeWhile (· != '\n')).length + 1)

/-- The text of a failure to read `cs`. -/
def failureMessage (cs : List Char) : Failure → String
  | (.longNumber n, _) => (Fault.longNumber n).message
  | (fault, left) =>
    let passed := cs.take (cs.length - left)
    let (line, column) := placeOf passed
    s!"{fault.message}: line {line} column {column} (char {passed.length})"

end Clipboard.Json
