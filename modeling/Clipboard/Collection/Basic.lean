import Clipboard.Classify.Classification
import Clipboard.Json.Same
import Clipboard.Search.Results
import Clipboard.Shape.Host
import Clipboard.Store.Basic

/-!
The collection of snippets in memory, in order of capture. Each change is written to the store at
once; when that fails the change stands and a warning is kept.
-/

namespace Clipboard

open Remote (Outside Consult)

/-- A snippet as a collection holds it. -/
structure Held where
  snippet : Snippet
  /-- The list that its notes are in, if other snippets may have theirs in the same one. -/
  list : Option Nat := none

namespace Held

/-- A snippet with its notes in a list of its own. -/
def own (s : Snippet) : Held := { snippet := s }

def edit (f : Snippet → Snippet) (h : Held) : Held := { h with snippet := f h.snippet }

theorem map_snippet_own (ss : List Snippet) : (ss.map own).map (·.snippet) = ss := by
  simp [own, Function.comp_def]

end Held

structure Collection where
  held : List Held := []
  store : Store := {}
  /-- Why the last load or save did not succeed. -/
  lastWarning : Option String := none
  /-- How many identifiers were drawn. -/
  drawn : Nat := 0

namespace Collection

def snippets (c : Collection) : List Snippet := c.held.map (·.snippet)

inductive Fault
  | notFound (id : Json)
  | noNotes
  | noSuchNote
  /-- An index beyond sixty-four bits. -/
  | hugeIndex
  /-- The title of a link cannot be told. -/
  | host (f : Link.HostFault)
  /-- Content that has parts cannot be told from other content. -/
  | compound
  | load (f : LoadFault)
  | record (f : RecordFault)
  /-- The collection has a text that cannot be stored. -/
  | torn

def Fault.message : Fault → String
  | notFound id => id.inspect
  | noNotes => "pop from empty list"
  | noSuchNote => "pop index out of range"
  | hugeIndex => "Python int too large to convert to C ssize_t"
  | host f => f.message
  | compound => "content with parts"
  | load f => f.message
  | record f => f.message
  | torn => SaveFault.torn.message

/-- What an operation gives and the collection after it. -/
abbrev Outcome (α : Type) := Except Fault α × Collection

end Collection

/-- A text that came to the clipboard. -/
structure CaptureEvent where
  text : String
  app : Option String := none
  icon : Option (List UInt8) := none

namespace Collection

/-! ## Reading -/

/-- Whether the snippet has this identifier. -/
def hasId (id : Json) (s : Snippet) : Bool := s.id.same id

def get? (c : Collection) (id : Json) : Option Snippet := c.snippets.find? (hasId id)

/-- Whether some snippet has this content. -/
def holds (c : Collection) (content : Json) : Bool := c.snippets.any (·.content.same content)

/-! ## Writing -/

/-- The warning for a failure of the store. -/
def warningFor (f : StorageFault) : String :=
  let hint := if f.isCapacity then " (storage is full)" else ""
  "Snippets not saved" ++ hint ++ ": " ++ f.message

/-- Writes the snippets to the store, and gives a result. Success clears the warning, a failure of
the store leaves one; a text that cannot be stored is a fault. -/
def persist {α : Type} (c : Collection) (result : α) : Outcome α :=
  match c.store.save c.snippets with
  | .ok store => (.ok result, { c with store, lastWarning := none })
  | .error (.storage f) => (.ok result, { c with lastWarning := some (warningFor f) })
  | .error .torn => (.error .torn, c)

/-- The collection with other snippets, written to the store. -/
def withHeld {α : Type} (c : Collection) (hs : List Held) (result : α) : Outcome α :=
  { c with held := hs }.persist result

/-- Replaces the snippets by the stored ones. -/
def load (c : Collection) : Outcome (List Snippet) :=
  match c.store.load with
  | .ok ss => (.ok ss, { c with held := ss.map .own })
  | .error (.storage f) =>
    (.ok [], { c with
      held := [], lastWarning := some ("Could not load saved snippets: " ++ f.message) })
  | .error f => (.error (.load f), c)

/-! ## Capture -/

def defaultSource : String := "Clipboard"

/-- What only this kind of snippet has, for a captured text. -/
def variantOf (e : CaptureEvent) (r : Classification) : Except Fault Variant :=
  match r.kind with
  | .code => .ok (.code (.text ""))
  | .link => match Link.title e.text.toList with
    | .ok title => .ok (.link (.text (.ofList title)))
    | .error f => .error (.host f)
  | .message => .ok (.message (.text ((r.contact.filter (!·.isEmpty)).getD (e.app.getD ""))))
  | .color => .ok (.color (.text ((r.color.map (·.value)).getD (Text.trimString e.text))))
  | .tweet => .ok (.tweet (.text ""))
  | .quote => .ok (.quote (.text ""))
  | .text => .ok .text

/-- The snippet for a captured text. -/
def snippetFor (e : CaptureEvent) (r : Classification) (id : String) (now : Calendar.Moment) :
    Except Fault Snippet := do
  let variant ← variantOf e r
  if h : r.tags.map Json.text ≠ [] then
    return {
      id := .text id, content := .text e.text, source := .text (e.app.getD defaultSource)
      app := e.app.map fun name => ⟨.text name, e.icon⟩
      moment := now, tags := r.tags.map .text, variant, tags_ne_nil := h }
  else throw (.record .noTags)

/-- The collection with a snippet for a classified text. -/
def keep (c : Collection) (e : CaptureEvent) (r : Classification) (newId : Nat → String)
    (now : Calendar.Moment) : Outcome (Option Snippet) :=
  match snippetFor e r (newId c.drawn) now with
  | .ok s => { c with drawn := c.drawn + 1 }.withHeld (c.held ++ [Held.own s]) (some s)
  | .error f => (.error f, c)

/-- Classifies a text and keeps it. Blank text and content that is already there are passed
over. -/
def capture (o : Outside) (classifier : Classifier) (newId : Nat → String) (now : Calendar.Moment)
    (c : Collection) (e : CaptureEvent) : Consult (Outcome (Option Snippet)) := do
  if Text.isBlank e.text.toList || c.holds (.text e.text) then return (.ok none, c)
  match ← classifier.classify o e.text e.app with
  | none => return (.ok none, c)
  | some r => return c.keep e r newId now

/-! ## Changes -/

/-- The snippets to add: those whose content is not known, each content once, up to the first one
whose content has parts. -/
def fresh (known : List Json) : List Held → List Held × Bool
  | [] => ([], true)
  | h :: hs =>
    if !h.snippet.content.isAtom then ([], false)
    else if known.any (·.same h.snippet.content) then fresh known hs
    else
      let (rest, complete) := fresh (h.snippet.content :: known) hs
      (h :: rest, complete)

/-- Appends snippets with new content and gives those that were added. -/
def add (c : Collection) (hs : List Held) : Outcome (List Snippet) :=
  if c.snippets.any (!·.content.isAtom) then (.error .compound, c)
  else match fresh (c.snippets.map (·.content)) hs with
    | ([], true) => (.ok [], c)
    | (added, true) => c.withHeld (c.held ++ added) (added.map (·.snippet))
    | (added, false) => (.error .compound, { c with held := c.held ++ added })

/-- Changes the first snippet with an identifier. -/
def change (id : Json) (f : Snippet → Snippet) : List Held → List Held
  | [] => []
  | h :: hs => if hasId id h.snippet then h.edit f :: hs else h :: change id f hs

/-- Changes the notes of the first snippet with an identifier. If they are in a list that others may
share, those have the changed notes too. -/
def changeNotes (id : Json) (list : Option Nat) (f : List Json → List Json) (hs : List Held) :
    List Held :=
  match list with
  | none => change id (·.withNotes f) hs
  | some _ => hs.map fun h => if h.list = list then h.edit (·.withNotes f) else h

/-- An operation on the snippet with an identifier. -/
def onSnippet {α : Type} (c : Collection) (id : Json) (f : Held → Outcome α) : Outcome α :=
  match c.held.find? (hasId id ·.snippet) with
  | some h => f h
  | none => (.error (.notFound id), c)

def addNote (c : Collection) (id note : Json) : Outcome Snippet :=
  c.onSnippet id fun h =>
    c.withHeld (changeNotes id h.list (· ++ [note]) c.held) (h.snippet.withNotes (· ++ [note]))

/-- The place of an item counted from the start or, with a negative number, from the end. -/
def place? (length : Nat) (index : Int) : Option Nat :=
  let i := if index < 0 then index + length else index
  if 0 ≤ i && i < length then some i.toNat else none

/-- Removes a note and gives it. -/
def removeNote (c : Collection) (id : Json) (index : Int) : Outcome Json :=
  c.onSnippet id fun h =>
    let notes := h.snippet.notes
    if index < -2 ^ 63 || 2 ^ 63 ≤ index then (.error .hugeIndex, c)
    else if notes.isEmpty then (.error .noNotes, c)
    else match (place? notes.length index).bind fun i => (notes[i]?).map (i, ·) with
      | some (i, note) => c.withHeld (changeNotes id h.list (·.eraseIdx i) c.held) note
      | none => (.error .noSuchNote, c)

/-- Marks a snippet as a favourite or takes the mark away; gives whether it now is one. -/
def toggleFavorite (c : Collection) (id : Json) : Outcome Bool :=
  c.onSnippet id fun h =>
    let toggled (s : Snippet) : Snippet := { s with isFavorite := !s.isFavorite }
    c.withHeld (change id toggled c.held) (!h.snippet.isFavorite)

def delete (c : Collection) (id : Json) : Outcome Snippet :=
  c.onSnippet id fun h => c.withHeld (c.held.eraseP (hasId id ·.snippet)) h.snippet

/-- Deletes everything and gives the number of snippets there were. -/
def deleteAll (c : Collection) : Outcome Nat := c.withHeld [] c.held.length

/-! ## Search -/

/-- The snippets that a filter finds, the languages told as for a capture. -/
def search (classifier : Classifier) (minMatchRatio : Float) (c : Collection) (f : Filter)
    (view order : String) : Except Search.Fault (List Snippet) :=
  Matcher.results ⟨classifier.languageOf?, minMatchRatio⟩ f c.snippets view order

end Collection

end Clipboard
