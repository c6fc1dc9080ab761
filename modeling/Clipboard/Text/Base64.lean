/-!
Bytes as text: three bytes become four characters, a shorter rest is filled up with `=`. Reading
passes over characters outside the alphabet and stops behind a filled-up group.
-/

namespace Clipboard.Text.Base64

/-- The character for a value below 64. -/
def charOf (n : Nat) : Char :=
  if n < 26 then Char.ofNat (65 + n)
  else if n < 52 then Char.ofNat (97 + (n - 26))
  else if n < 62 then Char.ofNat (48 + (n - 52))
  else if n == 62 then '+'
  else '/'

/-- The value of a character of the alphabet. -/
def value? (c : Char) : Option Nat :=
  let n := c.toNat
  if 65 ≤ n && n ≤ 90 then some (n - 65)
  else if 97 ≤ n && n ≤ 122 then some (n - 97 + 26)
  else if 48 ≤ n && n ≤ 57 then some (n - 48 + 52)
  else if c == '+' then some 62
  else if c == '/' then some 63
  else none

def encode : List UInt8 → List Char
  | [] => []
  | [a] => [charOf (a.toNat / 4), charOf (a.toNat % 4 * 16), '=', '=']
  | [a, b] =>
    [charOf (a.toNat / 4), charOf (a.toNat % 4 * 16 + b.toNat / 16), charOf (b.toNat % 16 * 4), '=']
  | a :: b :: c :: rest =>
    charOf (a.toNat / 4) :: charOf (a.toNat % 4 * 16 + b.toNat / 16)
      :: charOf (b.toNat % 16 * 4 + c.toNat / 64) :: charOf (c.toNat % 64) :: encode rest

inductive Fault
  | notAscii
  /-- A group of two or three characters that is not filled up. -/
  | padding
  /-- A group of a single character, the last of so many. -/
  | length (count : Nat)
  deriving DecidableEq, Repr

def Fault.message : Fault → String
  | notAscii => "string argument should contain only ASCII characters"
  | padding => "Incorrect padding"
  | length count =>
    s!"Invalid base64-encoded string: number of data characters ({count}) cannot be 1 more than a "
      ++ "multiple of 4"

/-- The bytes of a group of values, whole or begun. -/
def bytesOf : List Nat → List UInt8
  | [a, b] => [.ofNat (a * 4 + b / 16)]
  | [a, b, c] => [.ofNat (a * 4 + b / 16), .ofNat (b % 16 * 16 + c / 4)]
  | [a, b, c, d] =>
    [.ofNat (a * 4 + b / 16), .ofNat (b % 16 * 16 + c / 4), .ofNat (c % 4 * 64 + d)]
  | _ => []

/-- Reads on with the values of a begun group, the `=` since the last of them, and the number of
characters in the groups before. -/
def decodeFrom (group : List Nat) (fills count : Nat) : List Char → Except Fault (List UInt8)
  | [] =>
    if group.isEmpty then .ok []
    else if group.length == 1 then .error (.length (count + 1))
    else .error .padding
  | c :: cs =>
    if c == '=' then
      if group.length < 2 then decodeFrom group fills count cs
      else if 4 ≤ group.length + fills + 1 then .ok (bytesOf group)
      else decodeFrom group (fills + 1) count cs
    else match value? c with
      | none => decodeFrom group fills count cs
      | some v =>
        if group.length == 3 then do
          return bytesOf (group ++ [v]) ++ (← decodeFrom [] 0 (count + 4) cs)
        else decodeFrom (group ++ [v]) 0 count cs

/-- The bytes that a text stands for. -/
def decode (cs : List Char) : Except Fault (List UInt8) :=
  if cs.all (·.toNat < 128) then decodeFrom [] 0 0 cs else .error .notAscii

end Clipboard.Text.Base64
