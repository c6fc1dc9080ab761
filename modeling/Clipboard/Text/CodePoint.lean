import Clipboard.Text.Quoted

/-!
Code points of a text that was written in units of sixteen bits. A character beyond the first 65536
takes two such units; where one of them stands alone, the text has a code point that is no
character.
-/

namespace Clipboard.Text

/-- A character, or a half of a pair that stands alone. -/
inductive CodePoint
  | char (c : Char)
  | half (k : Fin 2048)
  deriving DecidableEq, Repr, Inhabited

namespace CodePoint

/-- The first of the numbers kept for halves. -/
def firstHalf : Nat := 0xd800

/-- The number of a code point. -/
def number : CodePoint → Nat
  | char c => c.toNat
  | half k => firstHalf + k

/-- The code point of a unit that is no half of a pair, or stands alone. -/
def ofUnit (n : Nat) : CodePoint :=
  if h : firstHalf ≤ n ∧ n < firstHalf + 2048 then half ⟨n - firstHalf, by omega⟩
  else char (Char.ofNat n)

def char? : CodePoint → Option Char
  | char c => some c
  | half _ => none

/-- The characters, if all code points are characters. -/
def chars? (ps : List CodePoint) : Option (List Char) := ps.mapM char?

/-- The characters, with the replacement character for each half. -/
def shownChars (ps : List CodePoint) : List Char := ps.map fun p => p.char?.getD '\ufffd'

/-- The runs of characters between halves, empty ones included. A half has no case and belongs to no
word, so each run lowers by itself. -/
def runs : List CodePoint → List (List Char)
  | [] => [[]]
  | half _ :: ps => [] :: runs ps
  | char c :: ps => match runs ps with
    | [] => [[c]]
    | r :: rs => (c :: r) :: rs

/-- A code point between quotes, as messages show it. -/
def quoted (quote : Char) : CodePoint → List Char
  | char c => quotedChar quote c
  | half k => '\\' :: 'u' :: hex 4 (firstHalf + k)

end CodePoint

/-- Code points as messages quote them. -/
def quotedPoints (ps : List CodePoint) : List Char :=
  let quote := quoteFor (CodePoint.shownChars ps)
  quote :: ps.flatMap (·.quoted quote) ++ [quote]

end Clipboard.Text
