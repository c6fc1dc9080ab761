import Clipboard.Calendar.Iso
import Clipboard.Json.Inspect
import Clipboard.Snippet.Basic
import Clipboard.Text.Base64

/-!
Snippets as records: what is stored of a snippet, and reading it back. A record is read as
generously as its values allow: a text counts as the list of its characters, an object as the list
of its keys, and fields that a kind does not have are passed over.
-/

namespace Clipboard

inductive RecordFault
  | notObject
  | missing (key : String)
  | unknownKind (v : Json)
  | appNotObject
  | iconNotText
  | icon (f : Text.Base64.Fault)
  | momentNotText
  | moment (f : Calendar.Fault)
  /-- A text for the moment in which a half of a pair stands alone. -/
  | tornMoment (v : Json)
  /-- A value that has no items, where tags or notes should be. -/
  | notList
  | noTags

namespace RecordFault

def message : RecordFault → String
  | notObject => "a record must be an object"
  | missing key => Text.quotedString key
  | unknownKind v => v.inspect ++ " is not a valid PrimaryType"
  | appNotObject => "a source app must be an object"
  | iconNotText => "an icon must be a text"
  | icon f => f.message
  | momentNotText => "a timestamp must be a text"
  | moment f => f.message
  | tornMoment v => "Invalid isoformat string: " ++ v.inspect
  | notList => "a value without items"
  | noTags => "a snippet must carry at least one tag"

/-- Whether a store passes over a record with this fault. -/
def isPassedOver : RecordFault → Bool
  | appNotObject => false
  | _ => true

end RecordFault

namespace Json

/-- The items of a list, the characters of a text, the keys of an object. -/
def items? : Json → Option (List Json)
  | list xs => some xs
  | text s => some (s.toList.map fun c => text (.ofList [c]))
  | torn ps => some (ps.map fun p => ofPoints [p])
  | object fields => some (fields.map fun (k, _) => text k)
  | _ => none

end Json

namespace SourceApp

def toRecord (a : SourceApp) : Json :=
  let icon := match a.icon with
    | none | some [] => .null
    | some bytes => .text (.ofList (Text.Base64.encode bytes))
  .object [("name", a.name), ("icon_blob", icon)]

/-- The bytes of an icon; nothing, an empty text and the like are no icon. -/
def readIcon (v : Json) : Except RecordFault (Option (List UInt8)) :=
  if !v.isPresent then .ok none
  else match v with
    | .text s => match Text.Base64.decode s.toList with
      | .ok bytes => .ok (some bytes)
      | .error f => .error (.icon f)
    | .torn _ => .error (.icon .notAscii)
    | _ => .error .iconNotText

/-- The program in a record; an absent or empty one is none. -/
def ofRecord (v : Json) : Except RecordFault (Option SourceApp) :=
  if !v.isPresent then .ok none
  else match v with
    | .object fields => do
      let name ← match Json.lookup? "name" fields with
        | some name => pure name
        | none => throw (.missing "name")
      return some ⟨name, ← readIcon ((Json.lookup? "icon_blob" fields).getD .null)⟩
    | _ => .error .appNotObject

end SourceApp

namespace Snippet

/-- The fields of a snippet's record, in order. -/
def fields (s : Snippet) : List (String × Json) :=
  [("id", s.id), ("type", .text s.kind.name), ("content", s.content), ("source", s.source),
    ("source_app", s.app.elim .null (·.toRecord)), ("timestamp", .text s.moment.isoText),
    ("tags", .list s.tags), ("notes", .list s.notes), ("is_favorite", .bool s.isFavorite)]
    ++ s.variant.field?.toList

def toRecord (s : Snippet) : Json := .object s.fields

def readKind (v : Json) : Except RecordFault Kind :=
  match v with
  | .text s => match Kind.ofName? s with
    | some k => .ok k
    | none => .error (.unknownKind v)
  | _ => .error (.unknownKind v)

def readMoment (v : Json) : Except RecordFault Calendar.Moment :=
  match v with
  | .text s => match Calendar.Moment.ofIso s with
    | .ok m => .ok m
    | .error f => .error (.moment f)
  | .torn ps => match Calendar.Moment.ofPoints? ps with
    | some m => .ok m
    | none => .error (.tornMoment v)
  | _ => .error .momentNotText

def readItems (v : Json) : Except RecordFault (List Json) :=
  match v.items? with
  | some xs => .ok xs
  | none => .error .notList

/-- The value of a key that has to be there. -/
def need (fields : List (String × Json)) (key : String) : Except RecordFault Json :=
  match Json.lookup? key fields with
  | some v => .ok v
  | none => .error (.missing key)

/-- The own field of a kind, empty if the record lacks it. -/
def readVariant (k : Kind) (fields : List (String × Json)) : Variant :=
  .make k (((Variant.fieldName? k).bind (Json.lookup? · fields)).getD (.text ""))

/-- The snippet with the fields of a record. -/
def ofFields (fields : List (String × Json)) : Except RecordFault Snippet := do
  let get (key : String) (default : Json) : Json := (Json.lookup? key fields).getD default
  let kind ← readKind (← need fields "type")
  let app ← SourceApp.ofRecord (get "source_app" .null)
  let id ← need fields "id"
  let content ← need fields "content"
  let moment ← readMoment (← need fields "timestamp")
  let tags ← readItems (← need fields "tags")
  let notes ← readItems (get "notes" (.list []))
  if h : tags ≠ [] then
    return {
      id, content, source := get "source" (.text ""), app, moment, tags, notes
      isFavorite := (get "is_favorite" (.bool false)).isPresent
      variant := readVariant kind fields, tags_ne_nil := h }
  else throw .noTags

def ofRecord : Json → Except RecordFault Snippet
  | .object fields => ofFields fields
  | _ => .error .notObject

end Snippet

end Clipboard
