import Clipboard.Json.Same
import Clipboard.Snippet.Record

/-!
Snippets put together from a kind and named parts, each of which the kind has to know.
-/

namespace Clipboard

inductive PartsFault
  /-- A part that every snippet has is not given. -/
  | lacking (name : String)
  /-- The kind has no part of this name. -/
  | unknown (name : String)
  /-- A part has a value that it cannot have. -/
  | value (f : RecordFault)

namespace Snippet

/-- The parts that have to be given. -/
def neededParts : List String := ["id", "content", "source", "timestamp", "tags"]

/-- The parts that a kind knows. -/
def partNames (k : Kind) : List String :=
  neededParts ++ ["source_app", "notes", "is_favorite"] ++ (Variant.fieldName? k).toList

/-- The given value of a part that has to be given. -/
def part (parts : List (String × Json)) (name : String) : Except PartsFault Json :=
  match Json.lookup? name parts with
  | some v => .ok v
  | none => .error (.lacking name)

/-- A snippet of a kind from its parts. A moment that is given is read before all else. A program is
never given as a value. -/
def ofParts (kind : Json) (parts : List (String × Json)) : Except PartsFault Snippet := do
  let get (name : String) (default : Json) : Json := (Json.lookup? name parts).getD default
  let timestamp := (Json.lookup? "timestamp" parts).map readMoment
  if let some (.error f) := timestamp then throw (.value f)
  let k ← (readKind kind).mapError .value
  if let some (name, _) := parts.find? fun (n, _) => !(partNames k).contains n then
    throw (.unknown name)
  let id ← part parts "id"
  let content ← part parts "content"
  let source ← part parts "source"
  let moment ← (readMoment (← part parts "timestamp")).mapError .value
  let tags ← part parts "tags"
  if !tags.isPresent then throw (.value .noTags)
  if !(get "source_app" .null).same .null then throw (.value .appNotObject)
  let tags ← (readItems tags).mapError .value
  let notes ← (readItems (get "notes" (.list []))).mapError .value
  if h : tags ≠ [] then
    return {
      id, content, source, moment, tags, notes
      isFavorite := (get "is_favorite" (.bool false)).isPresent
      variant := readVariant k parts, tags_ne_nil := h }
  else throw (.value .noTags)

/-- The record of a snippet from its parts. It shows the mark of a favourite as it was given. -/
def recordOfParts (kind : Json) (parts : List (String × Json)) : Except PartsFault Json := do
  let s ← ofParts kind parts
  match Json.lookup? "is_favorite" parts with
  | some mark => return .object (Json.setField "is_favorite" mark s.fields)
  | none => return s.toRecord

end Snippet

end Clipboard
