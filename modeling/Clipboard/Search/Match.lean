import Clipboard.Code.Rubric
import Clipboard.Code.Signatures
import Clipboard.Decimal.Ceiling
import Clipboard.Search.Filter
import Clipboard.Shape.Color
import Clipboard.Shape.Link
import Clipboard.Snippet.Basic

/-!
Whether a snippet has what a filter asks for. A snippet is of a type if it was stored as such, or
if its content looks like it.
-/

namespace Clipboard

open Text

namespace Search

inductive Fault
  /-- A value other than a text stands where a text is lowered or trimmed. -/
  | notText
  /-- A pattern is searched for in a value other than a text. -/
  | notSearchable
  | calendar (f : Calendar.Fault)
  /-- The share of words that have to be found is infinite. -/
  | infiniteShare
  /-- The share of words that have to be found is no number. -/
  | noShare
  | unknownView (name : String)
  | unknownOrder (name : String)

def Fault.message : Fault → String
  | notText => "a text is required"
  | notSearchable => "a text is required to search in"
  | calendar f => f.message
  | infiniteShare => "cannot convert float infinity to integer"
  | noShare => "cannot convert float NaN to integer"
  | unknownView name => "unknown view '" ++ name ++ "' (expected one of all, favorites)"
  | unknownOrder name => "unknown sort order '" ++ name ++ "' (expected newest or oldest)"

end Search

/-- How snippets are matched. -/
structure Matcher where
  languageOf? : List Char → Option Language := Language.ofMarkers?
  /-- The share of the words of a filter that have to be found. -/
  minMatchRatio : Float := 0.5

namespace Matcher

open Search (Fault)

/-- The characters of a text, as a pattern sees them. -/
def textOf (fault : Fault) (v : Json) : Except Fault (List Char) :=
  match v.chars? with
  | some cs => .ok cs
  | none => .error fault

def hasType (s : Snippet) (wanted : String) : Except Fault Bool :=
  let looks (k : Kind) (fault : Fault) (p : List Char → Bool) : Except Fault Bool :=
    if s.kind = k then .ok true else (textOf fault s.content).map p
  if wanted == "code" then looks .code .notText fun cs => Code.looksLikeCode cs {}
  else if wanted == "link" || wanted == "url" then looks .link .notSearchable Link.containsLink
  else if wanted == "text" then .ok (s.kind != .code && s.kind != .link)
  else if wanted == "color" then looks .color .notText fun cs => (Color.ofText? cs).isSome
  else .ok (s.kind.name == wanted)

/-- A text in lower case, as the runs of its characters. -/
def lowered (v : Json) : Except Fault (List (List Char)) :=
  match v.runs? with
  | some runs => .ok (runs.map lower)
  | none => .error .notText

/-- Whether one of the texts contains a text. -/
def holds (texts : List (List Char)) (part : String) : Bool := texts.any (hasPart part.toList)

/-- Whether the name of the program or of the source contains the wanted name. -/
def isFrom (s : Snippet) (wanted : String) : Except Fault Bool := do
  let named (v : Json) : Except Fault Bool := do return holds (← lowered v) (lowerString wanted)
  let byApp ← match s.app with
    | some app => named app.name
    | none => pure false
  if byApp then return true else named s.source

def hasLanguage (m : Matcher) (s : Snippet) (wanted : String) : Except Fault Bool := do
  let cs ← textOf .notSearchable s.content
  return Language.agrees wanted ((m.languageOf? cs).map (·.name))

/-- The texts to search in, in lower case: content, notes, source and tags. -/
def haystack (s : Snippet) : Except Fault (List (List Char)) := do
  let texts := (s.content :: s.notes ++ s.source :: s.tags).filter (·.isPresent)
  return (← texts.mapM lowered).flatten

/-- How many of so many words have to be found. -/
def needed (ratio : Float) (count : Nat) : Except Fault Nat :=
  match Decimal.ceilingOfProduct count ratio with
  | .whole n => .ok n
  | .infinite => .error .infiniteShare
  | .nan => .error .noShare

/-- Whether the text of the filter is found, or enough of its words. -/
def hasText (m : Matcher) (s : Snippet) (f : Filter) : Except Fault Bool := do
  let texts ← haystack s
  if f.freeText.any fun t => !t.isEmpty && holds texts t then return true
  if f.terms.isEmpty then return false
  return (← needed m.minMatchRatio f.terms.length) ≤ f.terms.countP (holds texts)

/-- Whether the snippet lies in the days of the filter, or shows its text for them. -/
def hasDate (s : Snippet) (f : Filter) : Except Fault Bool :=
  match f.dateRange with
  | some range => (range.contains s.moment).mapError .calendar
  | none => .ok (f.dateText.all fun t =>
      t.isEmpty || hasPart (lower t.toList) (lower s.displayMoment.toList))

/-- A condition on an optional text, which holds if there is none. -/
def given (o : Option String) (p : String → Except Fault Bool) : Except Fault Bool :=
  match o with
  | some t => if t.isEmpty then .ok true else p t
  | none => .ok true

/-- Whether a snippet passes a filter. What is asked first decides first. -/
def accepts (m : Matcher) (f : Filter) (s : Snippet) (favoritesOnly : Bool := false) :
    Except Fault Bool := do
  if (favoritesOnly || f.favoritesOnly) && !s.isFavorite then return false
  if !(← given f.sourceApp (isFrom s)) then return false
  if !(← given f.contentType (hasType s)) then return false
  if !(← given f.language (m.hasLanguage s)) then return false
  if !(← hasDate s f) then return false
  if Filter.isGiven f.freeText || !f.terms.isEmpty then m.hasText s f else return true

end Matcher

end Clipboard
