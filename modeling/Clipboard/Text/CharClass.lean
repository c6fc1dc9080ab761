import Clipboard.Text.ClassTable

/-!
Classes of characters: blanks, line breaks, word characters, decimal digits, visible characters.
-/

namespace Clipboard.Text

/-- Binary search; the ranges of a table ascend. -/
def CodeRanges.contains (t : CodeRanges) (n : Nat) : Bool :=
  search t.size 0 t.size
where
  search : Nat → Nat → Nat → Bool
    | 0, _, _ => false
    | steps + 1, lo, hi =>
      if lo < hi then
        let mid := (lo + hi) / 2
        match t[mid]? with
        | none => false
        | some (first, last) =>
          if n < first then search steps lo mid
          else if last < n then search steps (mid + 1) hi
          else true
      else false

/-- Blanks of every script, the four information separators among them. -/
def isSpace (c : Char) : Bool :=
  let n := c.toNat
  (9 ≤ n && n ≤ 13) || (28 ≤ n && n ≤ 32) || n == 133 || n == 160 || n == 5760
    || (8192 ≤ n && n ≤ 8202) || n == 8232 || n == 8233 || n == 8239 || n == 8287 || n == 12288

/-- Characters that end a line. -/
def isLineBreak (c : Char) : Bool :=
  let n := c.toNat
  (10 ≤ n && n ≤ 13) || (28 ≤ n && n ≤ 30) || n == 133 || n == 8232 || n == 8233

/-- Letters and numbers of every script. -/
def isAlnum (c : Char) : Bool :=
  if c.toNat < 128 then c.isAlphanum else wordRanges.contains c.toNat

/-- Letters, numbers and the underscore. -/
def isWord (c : Char) : Bool :=
  c == '_' || isAlnum c

/-- The value of a decimal digit of any script. -/
def digit? (c : Char) : Option Nat :=
  let n := c.toNat
  if n < 128 then
    if c.isDigit then some (n - 48) else none
  else
    (digitZeros.find? fun first => first ≤ n && n < first + 10).map (n - ·)

def isDigit (c : Char) : Bool := (digit? c).isSome

/-- Characters with a visible form, and the space. -/
def isVisible (c : Char) : Bool :=
  let n := c.toNat
  if n < 128 then 32 ≤ n && n < 127 else !hiddenRanges.contains n

end Clipboard.Text
