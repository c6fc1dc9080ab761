import Clipboard.Json.Inspect
import Clipboard.Snippet.Basic
import Clipboard.Text.Slice
import Clipboard.Text.Split

/-!
Snippets for people: a short line, a row of a table, a panel. A record may hold values that cannot
be shown in the place of a text.
-/

namespace Clipboard.Cli

open Text

/-- What is shown to the user, with marks for style. -/
inductive Printed
  | text (s : String)
  | panel (body title : String)
  /-- Without column names the head of the table is hidden. -/
  | table (title : Option String) (columns : Option (List String)) (rows : List (List String))

inductive RenderFault
  /-- A value other than a text is trimmed or compared as a text. -/
  | notText
  /-- A value other than a text is cut or joined with texts. -/
  | notJoinable
  /-- A value that a table cannot show. -/
  | notShowable

def RenderFault.message : RenderFault → String
  | notText => "a text is required"
  | notJoinable => "a text is required to join with texts"
  | notShowable => "a text is required in a table"

/-- The first line of a text, cut at a width. A mark shows that there is more. -/
def preview (cs : List Char) (width : Int := 60) : List Char :=
  let t := trim cs
  let first := (lines t).head?.getD []
  if width < first.length || t.contains '\n' then
    dropWhileEnd isSpace (takeFirst (width - 1) first) ++ ['…']
  else first

def styleOf : Kind → String
  | .code => "cyan"
  | .link => "blue"
  | .color => "magenta"
  | .message => "green"
  | .quote => "yellow"
  | .tweet => "bright_blue"
  | .text => "white"

/-- The line for a value that has to be a text. -/
def previewOf (v : Json) : Except RenderFault String :=
  match v.chars? with
  | some cs => .ok (.ofList (preview cs))
  | none => .error .notText

/-- The beginning of an identifier. -/
def shortId (v : Json) : Except RenderFault String :=
  match v, v.chars? with
  | _, some cs => .ok (.ofList (cs.take 8))
  | .list _, none => .error .notShowable
  | _, none => .error .notJoinable

/-- Texts with commas between them. -/
def joined (vs : List Json) : Except RenderFault String := do
  let texts ← vs.mapM fun v => match v.chars? with
    | some cs => Except.ok (String.ofList cs)
    | none => .error .notJoinable
  return ", ".intercalate texts

/-- A value in a table; no value is an empty place. -/
def cell (v : Json) : Except RenderFault String :=
  match v, v.chars? with
  | .null, _ => .ok ""
  | _, some cs => .ok (.ofList cs)
  | _, none => .error .notShowable

def kindMark (k : Kind) : String := "[" ++ styleOf k ++ "]" ++ k.name ++ "[/]"

/-- The row of a snippet. What cannot be cut or joined is found before what cannot be shown. -/
def rowOf (s : Snippet) : Except RenderFault (List String) := do
  let id := shortId s.id
  if let .error .notJoinable := id then throw .notJoinable
  let tags ← joined s.tags
  let line ← previewOf s.content
  return [← id, kindMark s.kind ++ (if s.isFavorite then " [yellow]★[/]" else ""), tags,
    ← cell s.source, s.displayMoment, line]

def columns : List String := ["ID", "Type", "Tags", "Source", "When", "Content"]

def tableOf (ss : List Snippet) (title : String := "Snippets") : Except RenderFault Printed := do
  return .table (some title) (some columns) (← ss.mapM rowOf)

/-- The name of a field with a capital letter and without underscores. -/
def fieldLabel (name : String) : String :=
  match (name.toList.map fun c => if c == '_' then ' ' else c) with
  | c :: cs => .ofList (c.toUpper :: cs)
  | [] => ""

/-- A label and a value side by side. -/
def labelled (label value : String) : String :=
  let l := label ++ ":"
  l ++ "".pushn ' ' (9 - l.length) ++ value

/-- All of a snippet, its notes numbered. -/
def panelOf (s : Snippet) : Except RenderFault Printed := do
  let tags ← joined s.tags
  let own := (s.variant.field?.toList.filter (·.2.isPresent)).map fun (name, v) =>
    labelled (fieldLabel name) v.asText
  let notes := s.notes.mapIdx fun i note => s!"Note {i + 1}:  {note.asText}"
  let content ← match s.content.chars? with
    | some cs => pure (String.ofList cs)
    | none => throw .notJoinable
  let body := [labelled "Type" ("[bold]" ++ s.kind.name ++ "[/]"), labelled "Tags" tags,
    labelled "Source" s.source.asText, labelled "When" s.displayMoment] ++ own ++ notes ++ ["", content]
  return .panel ("\n".intercalate body) ("[bold]" ++ s.id.asText ++ "[/]")

end Clipboard.Cli
