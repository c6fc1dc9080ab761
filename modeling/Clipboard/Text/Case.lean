import Clipboard.Text.CharClass
import Clipboard.Text.CaseTable

/-!
Lower and upper case of whole texts: a letter may become several, and a sigma at the end of a
word has a form of its own.
-/

namespace Clipboard.Text

def CaseRun.partner? (r : CaseRun) (n : Nat) : Option Char :=
  if r.first ≤ n && n ≤ r.last && (n - r.first) % r.stride == 0 then
    some (Char.ofNat (n + r.shift).toNat)
  else none

/-- The lower case of a letter standing alone. -/
def lowerChar (c : Char) : List Char :=
  if c.toNat < 128 then [c.toLower]
  else if c == 'İ' then ['i', '\u0307']
  else if c == 'Σ' then ['σ']
  else [(lowerRuns.findSome? (·.partner? c.toNat)).getD c]

/-- The upper case of a letter. -/
def upperChar (c : Char) : List Char :=
  if c.toNat < 128 then [c.toUpper]
  else match upperSpecial.find? (·.1 == c.toNat) with
    | some (_, s) => s.toList
    | none => [(upperRuns.findSome? (·.partner? c.toNat)).getD c]

def isCaseIgnorable (c : Char) : Bool :=
  if c.toNat < 128 then c ∈ ['\'', '.', ':', '^', '\x60'] else caseIgnorableRanges.contains c.toNat

def isCased (c : Char) : Bool :=
  if c.toNat < 128 then c.isAlpha else casedRanges.contains c.toNat

/-- Whether the nearest character that is not passed over is a cased letter. -/
def nextIsCased (cs : List Char) : Bool :=
  (cs.dropWhile isCaseIgnorable).head?.any isCased

/-- A sigma is final after a cased letter and before none; `before` runs backwards. -/
def isFinalSigma (before after : List Char) : Bool :=
  nextIsCased before && !nextIsCased after

/-- `before` holds what precedes, nearest first. -/
def lowerFrom (before : List Char) : List Char → List Char
  | [] => []
  | c :: cs =>
    (if c == 'Σ' && isFinalSigma before cs then ['ς'] else lowerChar c) ++ lowerFrom (c :: before) cs

def lower (cs : List Char) : List Char := lowerFrom [] cs

def upper (cs : List Char) : List Char := cs.flatMap upperChar

/-- `lower` on a string. -/
def lowerString (s : String) : String := .ofList (lower s.toList)

end Clipboard.Text
