import Clipboard.Json.Parser
import Clipboard.Json.Printer
import Clipboard.Snippet.Record
import Clipboard.Text.Case

/-!
A store of texts under keys that may fail, and the collection of snippets that it holds as one
text under one key.
-/

namespace Clipboard

/-- What goes wrong from now on, with the messages of the medium. -/
structure Failures where
  read : Option String := none
  /-- The statement that writes is refused before it is given what to write. -/
  prepare : Option String := none
  /-- What is given cannot be written. -/
  write : Option String := none

structure Store where
  /-- The latest text of each key. -/
  entries : List (String × String) := []
  failures : Failures := {}

inductive StorageFault
  | read (key message : String)
  | write (key message : String)
  /-- The stored text cannot be parsed. -/
  | malformed (detail : String)
  /-- The stored value is no list. -/
  | notList (v : Json)

namespace Json

/-- What a value is called. -/
def typeName : Json → String
  | null => "NoneType"
  | bool _ => "bool"
  | int _ => "int"
  | real _ => "float"
  | text _ | torn _ => "str"
  | list _ => "list"
  | object _ => "dict"

end Json

namespace StorageFault

def message : StorageFault → String
  | read key message => "Could not read '" ++ key ++ "': " ++ message
  | write key message => "Could not write '" ++ key ++ "': " ++ message
  | malformed detail => "Stored collection is not valid JSON: " ++ detail
  | notList v => "Stored collection must be a JSON list, got " ++ v.typeName

/-- Whether a message of the medium says that there is no room. -/
def saysFull (message : String) : Bool :=
  let lowered := Text.lower message.toList
  ["full", "quota", "no space"].any fun s => Text.hasPart s.toList lowered

/-- Whether there was no room to write. -/
def isCapacity : StorageFault → Bool
  | write _ message => saysFull message
  | _ => false

end StorageFault

/-- Why a collection is not saved. -/
inductive SaveFault
  | storage (f : StorageFault)
  /-- A text to be saved has a half of a pair that stands alone. -/
  | torn

def SaveFault.message : SaveFault → String
  | storage f => f.message
  | torn => "a half of a pair of code units cannot be stored"

inductive LoadFault
  | storage (f : StorageFault)
  /-- A whole number of the stored text has too many digits. -/
  | longNumber (digits : Nat)
  /-- The stored text is nested too deep. -/
  | tooDeep
  /-- A record that cannot be passed over. -/
  | record (f : RecordFault)

def LoadFault.message : LoadFault → String
  | storage f => f.message
  | longNumber digits => Decimal.tooLongMessage digits
  | tooDeep => "maximum recursion depth exceeded"
  | record f => f.message

namespace Store

def get (s : Store) (key : String) : Except StorageFault (Option String) :=
  match s.failures.read with
  | some message => .error (.read key message)
  | none => .ok (s.entries.lookup key)

/-- The entries with a key set. -/
def setEntry (key value : String) : List (String × String) → List (String × String)
  | [] => [(key, value)]
  | (k, v) :: entries =>
    if k == key then (k, value) :: entries else (k, v) :: setEntry key value entries

def put (s : Store) (key value : String) : Except StorageFault Store :=
  match s.failures.prepare <|> s.failures.write with
  | some message => .error (.write key message)
  | none => .ok { s with entries := setEntry key value s.entries }

/-- Puts a value under a key: numbers become texts, and what has no text is refused before anything
is written. -/
def putValue (s : Store) (key : String) (v : Json) : Except StorageFault Store :=
  match s.failures.prepare, v with
  | none, .null => .error (.write key "NOT NULL constraint failed: kv_store.value")
  | none, .list _ | none, .object _ => .error
    (.write key ("Error binding parameter 2: type '" ++ v.typeName ++ "' is not supported"))
  | _, .bool b => s.put key (if b then "1" else "0")
  | _, v => s.put key v.asText

/-- The versions of the layout of the store, which are all applied. Making sure of it prepares to write
before it reads. -/
def layoutVersions (s : Store) : Except String (List Nat) :=
  match s.failures.prepare <|> s.failures.read with
  | some message => .error message
  | none => .ok [1]

/-- The key of the collection. -/
def snippetsKey : String := "snippets"

/-- The snippets in records, in order; records that cannot be read are passed over. -/
def snippetsOf : List Json → Except LoadFault (List Snippet)
  | [] => .ok []
  | r :: rs => match Snippet.ofRecord r with
    | .ok s => do return s :: (← snippetsOf rs)
    | .error f => if f.isPassedOver then snippetsOf rs else .error (.record f)

/-- The snippets in a stored text. -/
def snippetsIn (text : String) : Except LoadFault (List Snippet) :=
  match Json.parse text.toList with
  | .ok (.list records) => snippetsOf records
  | .ok v => .error (.storage (.notList v))
  | .error (.longNumber digits, _) => .error (.longNumber digits)
  | .error (.tooDeep, _) => .error .tooDeep
  | .error e => .error (.storage (.malformed (Json.failureMessage text.toList e)))

/-- The stored collection; nothing stored is an empty collection. -/
def load (s : Store) (key : String := snippetsKey) : Except LoadFault (List Snippet) :=
  match s.get key with
  | .error f => .error (.storage f)
  | .ok none => .ok []
  | .ok (some text) => snippetsIn text

/-- The text that stands for a collection. -/
def textOf (ss : List Snippet) : String := (Json.list (ss.map (·.toRecord))).render

/-- Replaces the stored collection. A text that cannot be stored is found when it is given to the
medium, before the medium fails to write it. -/
def save (s : Store) (ss : List Snippet) (key : String := snippetsKey) : Except SaveFault Store :=
  if s.failures.prepare.isNone && ss.any (!·.toRecord.isWhole) then .error .torn
  else (s.put key (textOf ss)).mapError .storage

end Store

end Clipboard
