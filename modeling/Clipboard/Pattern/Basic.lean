import Clipboard.Text.CharClass

/-!
Patterns over text, tried in order with backtracking. A pattern is run from a cursor with what
is to follow; the first way through that lets the rest succeed is taken.
-/

namespace Clipboard

/-- A place in a text: what came before it, what follows, and the text held for later. -/
structure Cursor where
  before : Option Char
  rest : List Char
  held : List Char

inductive Pattern
  | empty
  /-- One character of a class. -/
  | one (p : Char → Bool)
  /-- As many characters of a class as possible, then fewer. -/
  | many (p : Char → Bool)
  /-- As few characters of a class as possible, then more. -/
  | fewest (p : Char → Bool)
  | seq (a b : Pattern)
  | alt (a b : Pattern)
  /-- As many repetitions as possible, then fewer. -/
  | star (a : Pattern)
  /-- Hold the text that `a` passes over. -/
  | hold (a : Pattern)
  /-- The held text once more. -/
  | again
  /-- A condition on the character before and the text after. -/
  | here (p : Option Char → List Char → Bool)

namespace Cursor

def start (cs : List Char) : Cursor := ⟨none, cs, []⟩

/-- The cursor behind the first character, which is `c`. -/
def pass (k : Cursor) (c : Char) (cs : List Char) : Cursor := { k with before := some c, rest := cs }

/-- The cursors behind 0, 1, 2, … characters of the class. -/
def along (p : Char → Bool) (before : Option Char) (held : List Char) : List Char → List Cursor
  | [] => [⟨before, [], held⟩]
  | c :: cs => ⟨before, c :: cs, held⟩ :: if p c then along p (some c) held cs else []

/-- The text between two cursors of one text. -/
def textTo (k l : Cursor) : List Char := k.rest.take (k.rest.length - l.rest.length)

/-- The cursor behind the given text, if that text follows. -/
def passText? (k : Cursor) : List Char → Option Cursor
  | [] => some k
  | c :: cs => match k.rest with
    | [] => none
    | d :: ds => if c == d then (k.pass d ds).passText? cs else none

end Cursor

namespace Pattern

variable {α : Type}

/-- Repeats a step that makes progress, at most once for each character of `fuel`. -/
def repeated (step : Cursor → (Cursor → Option α) → Option α) (next : Cursor → Option α) :
    List Char → Cursor → Option α
  | [], k => next k
  | _ :: fuel, k =>
    step k (fun l => if l.rest.length < k.rest.length then repeated step next fuel l else none)
      <|> next k

/-- The first way through the pattern from which `next` succeeds. -/
def run : Pattern → Cursor → (Cursor → Option α) → Option α
  | empty, k, next => next k
  | one p, k, next => match k.rest with
    | [] => none
    | c :: cs => if p c then next (k.pass c cs) else none
  | many p, k, next => (Cursor.along p k.before k.held k.rest).reverse.findSome? next
  | fewest p, k, next => (Cursor.along p k.before k.held k.rest).findSome? next
  | seq a b, k, next => a.run k fun l => b.run l next
  | alt a b, k, next => a.run k next <|> b.run k next
  | star a, k, next => repeated a.run next k.rest k
  | hold a, k, next => a.run k fun l => next { l with held := k.textTo l }
  | again, k, next => (k.passText? k.held).bind next
  | here p, k, next => if p k.before k.rest then next k else none

/-- The cursor behind the first way through. -/
def match? (a : Pattern) (k : Cursor) : Option Cursor := a.run k some

/-- The leftmost match at or after a cursor: where it starts and where it ends. -/
def searchFrom (a : Pattern) (before : Option Char) : List Char → Option (Cursor × Cursor)
  | [] => (a.match? ⟨before, [], []⟩).map (⟨before, [], []⟩, ·)
  | c :: cs => match a.match? ⟨before, c :: cs, []⟩ with
    | some l => some (⟨before, c :: cs, []⟩, l)
    | none => a.searchFrom (some c) cs

def search? (a : Pattern) (cs : List Char) : Option (Cursor × Cursor) := a.searchFrom none cs

/-- Whether the pattern matches somewhere. -/
def found (a : Pattern) (cs : List Char) : Bool := (a.search? cs).isSome

/-- Whether the pattern matches at the start. -/
def starts (a : Pattern) (cs : List Char) : Bool := (a.match? (.start cs)).isSome

/-- The text of the leftmost match. -/
def firstText? (a : Pattern) (cs : List Char) : Option (List Char) :=
  (a.search? cs).map fun (k, l) => k.textTo l

/-- The matches from left to right that do not overlap; `fuel` bounds their number. -/
def matchesFrom (a : Pattern) : Nat → Option Char → List Char → List (Cursor × Cursor)
  | 0, _, _ => []
  | fuel + 1, before, cs => match a.searchFrom before cs with
    | none => []
    | some (k, l) =>
      if l.rest.length < k.rest.length then (k, l) :: a.matchesFrom fuel l.before l.rest
      else match k.rest with
        | [] => [(k, l)]
        | c :: cs => (k, l) :: a.matchesFrom fuel (some c) cs

def allMatches (a : Pattern) (cs : List Char) : List (Cursor × Cursor) :=
  a.matchesFrom (cs.length + 1) none cs

def count (a : Pattern) (cs : List Char) : Nat := (a.allMatches cs).length

/-- The texts of all matches. -/
def texts (a : Pattern) (cs : List Char) : List (List Char) :=
  (a.allMatches cs).map fun (k, l) => k.textTo l

end Pattern

end Clipboard
