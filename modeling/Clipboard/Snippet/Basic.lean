import Clipboard.Calendar.Moment
import Clipboard.Json.Basic
import Clipboard.Snippet.Kind

/-!
A snippet: a piece of text that was once on the clipboard, with what is known about it. A record
in a store may hold any value where a text is usual, so these fields are values.
-/

namespace Clipboard

/-- The program that a text came from. -/
structure SourceApp where
  name : Json
  icon : Option (List UInt8) := none

/-- What only one kind of snippet has. -/
inductive Variant
  | code (path : Json)
  | tweet (handle : Json)
  | quote (author : Json)
  | link (title : Json)
  | text
  | message (contact : Json)
  | color (value : Json)

namespace Variant

def kind : Variant → Kind
  | code _ => .code
  | tweet _ => .tweet
  | quote _ => .quote
  | link _ => .link
  | text => .text
  | message _ => .message
  | color _ => .color

/-- The name of the field that a kind has for itself. -/
def fieldName? : Kind → Option String
  | .code => some "path"
  | .tweet => some "handle"
  | .quote => some "author"
  | .link => some "title"
  | .text => none
  | .message => some "contact"
  | .color => some "color_value"

/-- A kind with its own field; plain text has none. -/
def make (k : Kind) (v : Json) : Variant :=
  match k with
  | .code => code v
  | .tweet => tweet v
  | .quote => quote v
  | .link => link v
  | .text => text
  | .message => message v
  | .color => color v

/-- The own field, with its name. -/
def field? : Variant → Option (String × Json)
  | code v => some ("path", v)
  | tweet v => some ("handle", v)
  | quote v => some ("author", v)
  | link v => some ("title", v)
  | text => none
  | message v => some ("contact", v)
  | color v => some ("color_value", v)

end Variant

structure Snippet where
  id : Json
  content : Json
  /-- The name of where the text came from. -/
  source : Json
  app : Option SourceApp := none
  moment : Calendar.Moment
  tags : List Json
  notes : List Json := []
  isFavorite : Bool := false
  variant : Variant
  tags_ne_nil : tags ≠ []

namespace Snippet

def kind (s : Snippet) : Kind := s.variant.kind

/-- The snippet with changed notes. -/
def withNotes (f : List Json → List Json) (s : Snippet) : Snippet := { s with notes := f s.notes }

/-- The moment of the capture, for people. -/
def displayMoment (s : Snippet) : String := s.moment.display

end Snippet

end Clipboard
