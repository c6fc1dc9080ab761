import Clipboard.Pattern.Basic

/-!
Forms that patterns are written in: literal text, optional and counted parts, choices, and the
places where a text, a line or a word begins or ends.
-/

namespace Clipboard.Pattern

instance : Append Pattern := ⟨seq⟩

/-- The given text. -/
def exactly (s : String) : Pattern :=
  s.toList.foldr (fun c a => seq (one (· == c)) a) empty

instance : Coe String Pattern := ⟨exactly⟩

/-- Whether `c` is the letter `l` in some case. The dotted and dotless i, the long s and the
Kelvin sign count as i, s and k. -/
def sameLetter (l c : Char) : Bool :=
  c.toLower == l.toLower
    || (l.toLower == 'i' && (c == 'İ' || c == 'ı'))
    || (l.toLower == 's' && c == 'ſ')
    || (l.toLower == 'k' && c == '\u212a')

/-- The given ASCII text in any mixture of cases. -/
def anyCase (s : String) : Pattern :=
  s.toList.foldr (fun c a => seq (one (sameLetter c)) a) empty

/-- One of the characters of `s`. -/
@[inline] def among (s : String) : Char → Bool := fun c => s.toList.contains c

/-- None of the characters of `s`. -/
@[inline] def noneOf (s : String) : Char → Bool := fun c => !s.toList.contains c

/-- A character that stays on the line. -/
def onLine (c : Char) : Bool := c != '\n'

/-- One or more characters of a class. -/
def someOf (p : Char → Bool) : Pattern := one p ++ many p

/-- `a` or nothing. -/
def optional (a : Pattern) : Pattern := alt a empty

def oneOf : List Pattern → Pattern
  | [] => here fun _ _ => false
  | [a] => a
  | a :: as => alt a (oneOf as)

/-- One of the texts in any mixture of cases. -/
def anyCaseOf (ss : List String) : Pattern := oneOf (ss.map anyCase)

/-- At most `n` times `a`, as often as possible. -/
def upTo (a : Pattern) : Nat → Pattern
  | 0 => empty
  | n + 1 => optional (a ++ upTo a n)

/-- From `m` to `m + n` characters of a class. -/
def counted (p : Char → Bool) (m n : Nat) : Pattern :=
  match m with
  | 0 => upTo (one p) n
  | m + 1 => one p ++ counted p m n

def spaces : Pattern := many Text.isSpace

def someSpaces : Pattern := someOf Text.isSpace

def wordChars : Pattern := someOf Text.isWord

/-- The start of the text. -/
def textStart : Pattern := here fun before _ => before.isNone

/-- The end of the text, or the line feed that ends it. -/
def textEnd : Pattern := here fun _ rest => rest.isEmpty || rest == ['\n']

/-- The start of a line; only the line feed ends a line here. -/
def lineStart : Pattern := here fun before _ => before.all (· == '\n')

/-- The end of a line. -/
def lineEnd : Pattern := here fun _ rest => rest.head?.all (· == '\n')

/-- The edge of a run of word characters. -/
def wordEdge : Pattern := here fun before rest => before.any Text.isWord != rest.head?.any Text.isWord

/-- The text that follows does not begin with `s`. -/
def notBefore (s : String) : Pattern := here fun _ rest => !s.toList.isPrefixOf rest

end Clipboard.Pattern
