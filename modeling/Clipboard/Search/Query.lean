import Clipboard.Calendar.Resolver
import Clipboard.Code.Language
import Clipboard.Remote.Labeller
import Clipboard.Search.Filter
import Clipboard.Settings.Basic

/-!
Search input as a filter. Input that begins with a slash is a command; other input, and a command
that is not known, is text to search for. A command given again refines the filter before it, a
different one starts anew.
-/

namespace Clipboard

open Text
open Calendar (Resolver ResolveFault)
open Remote (Outside Consult Attempt Labeller)

inductive Command
  | date | type | app | fav | smart
  deriving DecidableEq, Repr

namespace Command

def all : List Command := [date, type, app, fav, smart]

def name : Command → String
  | date => "date"
  | type => "type"
  | app => "app"
  | fav => "fav"
  | smart => "smart"

def ofName? (s : String) : Option Command := all.find? (·.name == s)

end Command

/-- What search input says. -/
inductive Query
  | nothing
  /-- Trimmed text. -/
  | text (cs : List Char)
  | order (name : String)
  | command (c : Command) (argument : List Char)

/-- Reads search input: the name of a command ends at the first space. -/
def Query.ofInput (input : List Char) : Query :=
  match trim input with
  | [] => .nothing
  | '/' :: rest =>
    let (head, argument) := cutAt ' ' rest
    let name := String.ofList (lower head)
    if sortOrders.contains name then .order name
    else match Command.ofName? name with
      | some c => .command c (trim (argument.getD []))
      | none => .text ('/' :: rest)
  | cs => .text cs

/-- Words that name a type of content. -/
def typeWords : List (String × String) := [
  ("link", "link"), ("links", "link"), ("url", "link"), ("urls", "link"), ("website", "link"),
  ("websites", "link"), ("code", "code"), ("script", "code"), ("scripts", "code"),
  ("programming", "code"), ("text", "text"), ("note", "text"), ("notes", "text"),
  ("message", "text"), ("messages", "text"), ("color", "color"), ("colors", "color"),
  ("colour", "color"), ("hex", "color"), ("rgb", "color"), ("rgba", "color"), ("hsl", "color")]

/-- The type that a phrase names by itself: that of the first language, or of the first word for a
type. -/
def namedType? (phrase : List Char) : Option (String × Option String) :=
  match Language.mentioned? (.ofList phrase) with
  | some l => some ("code", some l.name)
  | none => ((words (lower phrase)).findSome? fun w => typeWords.lookup (.ofList w)).map (·, none)

/-- Turns search input into filters. -/
structure Compiler where
  dates : Resolver := {}
  /-- Answers for types that the words do not name. -/
  labeller : Option Labeller := none
  minTermLength : Int := 3
  /-- Whether the model may be asked about every date. -/
  smart : Bool := false

namespace Compiler

def textFilter (c : Compiler) (text : List Char) (command : Option String := none) : Filter :=
  .ofText c.minTermLength text command

/-- The filter for a type, which replaces a text. -/
def withType (base : Filter) (type : String) (language : Option String) : Filter :=
  { base with
    contentType := some type, language := if type == "code" then language else none
    freeText := none, terms := [] }

/-- The type in a phrase according to the model, if it has an answer. -/
def askedType? (o : Outside) (c : Compiler) (phrase : List Char) :
    Consult (Option (String × Option String)) := do
  match c.labeller with
  | none => return none
  | some l =>
    match ← (l.inferKind o (.ofList phrase)).run with
    | .ok guess => return guess.kind.map (·, guess.language)
    | .error _ => return none

def typeFilter (o : Outside) (c : Compiler) (base : Filter) (phrase : List Char) :
    Consult Filter := do
  if phrase.isEmpty then return { base with contentType := none, language := none }
  let answer ← match namedType? phrase with
    | some t => pure (some t)
    | none => c.askedType? o phrase
  match answer with
  | some (type, language) => return withType base type language
  | none => return c.textFilter phrase (some Command.type.name)

def dateFilter (o : Outside) (c : Compiler) (now : Calendar.Moment) (base : Filter)
    (phrase : List Char) (relaxed : Bool) : Attempt ResolveFault Filter := do
  if phrase.isEmpty then
    return { base with dateRange := none, dateLabel := none, dateText := none }
  match ← c.dates.resolve o now (.ofList phrase) relaxed with
  | .found range label _ =>
    return { base with dateRange := some range, dateLabel := some label, dateText := none }
  | .unresolved label =>
    return { base with
      dateRange := none, dateLabel := some label, dateText := some (.ofList phrase) }

def appFilter (base : Filter) (name : List Char) : Filter :=
  { base with sourceApp := if name.isEmpty then none else some (.ofList name) }

def favoriteFilter (c : Compiler) (base : Filter) (text : List Char) : Filter :=
  if text.isEmpty then { base with favoritesOnly := true }
  else
    let found := c.textFilter text
    { base with favoritesOnly := true, freeText := found.freeText, terms := found.terms }

def smartFilter (c : Compiler) (text : List Char) : Filter :=
  if text.isEmpty then { command := some Command.smart.name }
  else c.textFilter text (some Command.smart.name)

/-- The filter that a command refines: the one before if it comes from the same command. -/
def baseFor (command : Command) (previous : Option Filter) : Filter :=
  (previous.filter (·.command == some command.name)).getD { command := some command.name }

/-- The filter for search input, given the filter before it. -/
def compile (o : Outside) (c : Compiler) (now : Calendar.Moment) (input : String)
    (previous : Option Filter := none) (relaxed : Bool := false) : Attempt ResolveFault Filter := do
  match Query.ofInput input.toList with
  | .nothing => return {}
  | .text cs => return c.textFilter cs
  | .order name => return { previous.getD {} with sortOrder := some name }
  | .command command argument =>
    let base := baseFor command previous
    match command with
    | .date => c.dateFilter o now base argument (relaxed || c.smart)
    | .type => c.typeFilter o base argument
    | .app => return appFilter base argument
    | .fav => return c.favoriteFilter base argument
    | .smart => return c.smartFilter argument

/-- Compiles inputs in turn, each after the filter before it; the filters in order. -/
def compileAll (o : Outside) (c : Compiler) (now : Calendar.Moment) (previous : Option Filter) :
    List (String × Bool) → Attempt ResolveFault (List Filter)
  | [] => return []
  | (input, relaxed) :: rest => do
    let f ← c.compile o now input previous relaxed
    return f :: (← c.compileAll o now (some f) rest)

end Compiler

end Clipboard
