import Clipboard.Json.Basic
import Clipboard.Decimal.Shortest

/-!
Writing a value as text, on one line, with a blank after each comma and colon.
-/

namespace Clipboard.Json

def hexDigit (n : Nat) : Char := if n < 10 then Char.ofNat (48 + n) else Char.ofNat (87 + n)

/-- A unit of sixteen bits as a backslash, a `u` and four digits. -/
def unitEscape (n : Nat) : List Char :=
  ['\\', 'u', hexDigit (n / 4096 % 16), hexDigit (n / 256 % 16), hexDigit (n / 16 % 16),
    hexDigit (n % 16)]

/-- A character inside quotes. With `ascii`, characters beyond ASCII are written as units. -/
def quotedChar (ascii : Bool) (c : Char) : List Char :=
  if c == '"' then ['\\', '"']
  else if c == '\\' then ['\\', '\\']
  else if c == '\n' then ['\\', 'n']
  else if c == '\r' then ['\\', 'r']
  else if c == '\t' then ['\\', 't']
  else if c == '\x0c' then ['\\', 'f']
  else if c == '\x08' then ['\\', 'b']
  else if c.toNat < 32 then unitEscape c.toNat
  else if ascii && 127 ≤ c.toNat then
    if c.toNat < 0x10000 then unitEscape c.toNat
    else
      let n := c.toNat - 0x10000
      unitEscape (0xd800 + n / 1024) ++ unitEscape (0xdc00 + n % 1024)
  else [c]

def quoted (ascii : Bool) (s : String) : List Char :=
  '"' :: s.toList.flatMap (quotedChar ascii) ++ ['"']

/-- A code point inside quotes; half of a pair is written as a unit. -/
def quotedPoint (ascii : Bool) : Text.CodePoint → List Char
  | .char c => quotedChar ascii c
  | .half k => unitEscape (Text.CodePoint.half k).number

def quotedPoints (ascii : Bool) (ps : List Text.CodePoint) : List Char :=
  '"' :: ps.flatMap (quotedPoint ascii) ++ ['"']

def realText (x : Float) : String :=
  match Decimal.Parts.of x with
  | .nan => "NaN"
  | .infinite negative => if negative then "-Infinity" else "Infinity"
  | .finite negative m e => Decimal.finiteText negative m e

mutual

/-- The text of a value. -/
def print (ascii : Bool) : Json → List Char
  | null => "null".toList
  | bool b => (if b then "true" else "false").toList
  | int n => (toString n).toList
  | real x => (realText x).toList
  | text s => quoted ascii s
  | torn ps => quotedPoints ascii ps
  | list xs => '[' :: printItems ascii xs ++ [']']
  | object fields => '\x7b' :: printFields ascii fields ++ ['\x7d']

def printItems (ascii : Bool) : List Json → List Char
  | [] => []
  | [v] => print ascii v
  | v :: vs => print ascii v ++ ',' :: ' ' :: printItems ascii vs

def printFields (ascii : Bool) : List (String × Json) → List Char
  | [] => []
  | [(k, v)] => quoted ascii k ++ ':' :: ' ' :: print ascii v
  | (k, v) :: fields =>
    quoted ascii k ++ ':' :: ' ' :: print ascii v ++ ',' :: ' ' :: printFields ascii fields

end

/-- The text of a value, with all characters as they are. -/
def render (v : Json) : String := .ofList (v.print false)

end Clipboard.Json
