import Clipboard.Decimal.Ceiling
import Clipboard.Pattern.Forms
import Clipboard.Remote.Access
import Clipboard.Settings.Basic
import Clipboard.Settings.Convert
import Clipboard.Store.Place

/-!
Settings from their layers: the file for all projects, the file of a project, and the environment,
each one before those in front of it. No file for all projects may hold a secret.
-/

namespace Clipboard

namespace Settings

open Remote (Environment)

/-- A file of settings, by its path, and the value in it. -/
structure Layer where
  path : String
  value : Value

/-- The last part of the path. -/
def Layer.name (l : Layer) : String :=
  .ofList ((Text.pieces (· == '/') l.path.toList).getLast?.getD [])

inductive Fault
  /-- A secret among the settings: the file, the path to the key and the key. -/
  | secret (layer : Layer) (path key : Scalar)
  | unknownOrder (name : String)
  | noShare
  /-- A value without keys where a section or the whole of the settings is expected. -/
  | notObject
  /-- A value that has no items. -/
  | noItems
  /-- A value with parts as a key. -/
  | compoundKey
  | convert (f : ConvertFault)

/-- How a key is written in the environment. -/
def variableOf (key : String) : String :=
  .ofList ((Text.upper key.toList).map fun c => if c == '-' then '_' else c)

def Fault.message : Fault → String
  | secret layer path key =>
    "\n".intercalate [
      "Global config '" ++ layer.path ++ "' contains a forbidden key '" ++ path.asText ++ "'.",
      "  API keys must be set via environment variables, not config files.",
      "  Remove '" ++ path.asText ++ "' from " ++ layer.name ++ " and use:",
      "    export " ++ variableOf key.asText ++ "=<value>"]
  | unknownOrder name => "search.default_sort must be 'newest' or 'oldest', got '" ++ name ++ "'"
  | noShare => "search.min_match_ratio must be in (0.0, 1.0]"
  | notObject => "a section must be an object"
  | noItems => "a value without items"
  | compoundKey => "a key must have no parts"
  | convert f => f.message

/-- Whether the fault is a rule of the settings broken, not a value of a wrong kind. -/
def Fault.isRule : Fault → Bool
  | secret .. | unknownOrder _ | noShare => true
  | _ => false

/-! ## Secrets -/

open Pattern in
/-- Names of secrets. -/
def secretName : Pattern :=
  oneOf [
    anyCase "api" ++ optional (one (among "_-")) ++ anyCaseOf ["key", "secret"],
    anyCase "_token" ++ textEnd,
    textStart ++ anyCase "token" ++ textEnd,
    anyCase "_secret" ++ textEnd,
    textStart ++ anyCase "secret" ++ textEnd,
    anyCase "passw" ++ anyCaseOf ["ord", "d"],
    anyCase "credential"]

def isSecret (key : Scalar) : Bool := secretName.found key.asText.toList

/-- The path to a key below another path. A key that counts as absent is no path. -/
def below (path key : Scalar) : Scalar :=
  if path.isPresent then .text (path.asText ++ "." ++ key.asText) else key

/-- Whether the search for secrets goes no further than this key. -/
def stopsAt (key : Scalar) : Bool := key.isOverlong || isSecret key

mutual

/-- The key at which the search for secrets stops, with the path to it. Only objects are looked
into. -/
def stopIn? (path : Scalar) : Value → Option (Scalar × Scalar)
  | .object fields => stopAmong? path fields
  | _ => none

def stopAmong? (path : Scalar) : Fields → Option (Scalar × Scalar)
  | [] => none
  | (k, v) :: fields =>
    if stopsAt k then some (below path k, k)
    else stopIn? (below path k) v <|> stopAmong? path fields

end

def Layer.stop? (l : Layer) : Option (Scalar × Scalar) := stopIn? "" l.value

/-- Why a layer is refused for a key. One that cannot be shown cannot be checked. -/
def Layer.refusal (l : Layer) (path key : Scalar) : Fault :=
  if key.isOverlong then .convert .overlong else .secret l path key

/-- Refuses a layer that names a secret. -/
def checkSecrets (layer : Layer) : Except Fault Unit :=
  match layer.stop? with
  | some (path, key) => .error (layer.refusal path key)
  | none => .ok ()

/-! ## Layers -/

def sections : List String := ["llm", "classifier", "dates", "search", "capture", "storage"]

/-- What can be gone through: the keys of an object or a set, the items of a list, the characters of
a text, the numbers of bytes. -/
def keysOf : Value → Except Fault (List Value)
  | .object fields => .ok (fields.map fun (k, _) => .scalar k)
  | .set keys => .ok (keys.map .scalar)
  | .list xs => .ok xs
  | .pair v w => .ok [v, w]
  | .scalar (.text s) => .ok (s.toList.map fun c => .scalar (.text (.ofList [c])))
  | .scalar (.torn ps) => .ok (ps.map fun p => .scalar (match p.char? with
    | some c => .text (.ofList [c])
    | none => .torn [p]))
  | .scalar (.bytes bs) => .ok (bs.map fun b => .scalar (.int b.toNat))
  | .scalar _ => .error .noItems

def isSection : Value → Bool
  | .scalar (.text s) => sections.contains s
  | _ => false

/-- Whether a value can be looked for among keys; a set is looked for as if it were one. -/
def isSought : Value → Bool
  | .set _ => true
  | v => v.isKey

def unknownKey (layer : Layer) (key : Value) : String :=
  "Unknown config key '" ++ key.asText ++ "' in '" ++ layer.path ++ "' — ignored."

/-- Warnings about keys that are no section, up to the first one that is no key or cannot be shown. -/
def unknownKeys (layer : Layer) : List Value → List String × Option Fault
  | [] => ([], none)
  | v :: vs =>
    if !isSought v then ([], some .compoundKey)
    else if v.isOverlong then ([], some (.convert .overlong))
    else
      let (warnings, fault) := unknownKeys layer vs
      if isSection v then (warnings, fault) else (unknownKey layer v :: warnings, fault)

mutual

/-- A value over another one: objects are joined key by key. -/
def overlay (base : Option Value) : Value → Value
  | .object fields => .object (overlayFields
      (match base with | some (.object b) => b | _ => []) fields)
  | v => v

def overlayFields (base : Fields) : Fields → Fields
  | [] => base
  | (k, v) :: fields => overlayFields (setField k (overlay (lookup? k base) v) base) fields

end

/-- A computation that warns and may fail. -/
abbrev Reading := ExceptT Fault (StateM (List String))

def Reading.of {α : Type} : Except Fault α → Reading α
  | .ok a => pure a
  | .error f => throw f

/-- The fields of a layer over those below it. -/
def addLayer (base : Fields) (layer : Layer) : Reading Fields := do
  let value := if layer.value.isPresent then layer.value else .object []
  let (warnings, fault) := unknownKeys layer (← Reading.of (keysOf value))
  modify (· ++ warnings)
  match fault, value with
  | some f, _ => throw f
  | none, .object fields => return overlayFields base fields
  | none, _ => throw .notObject

/-! ## Sections -/

/-- The fields of a section that is there; an empty value is an empty section. -/
def section? (fields : Fields) (name : String) : Except Fault (Option Fields) :=
  match lookup? name fields with
  | none => .ok none
  | some (.object s) => .ok (some s)
  | some v => if v.isPresent then .error .notObject else .ok (some [])

/-- What a section says under a key, converted; the default if it says nothing. -/
def told {α : Type} (convert : Value → Except ConvertFault α) (s : Fields) (key : String)
    (default : α) : Except Fault α :=
  (lookup? key s).elim (.ok default) fun v => (convert v).mapError .convert

def whole (s : Fields) (key : String) (default : Int) : Except Fault Int := told toWhole s key default

def real (s : Fields) (key : String) (default : Float) : Except Fault Float :=
  told toReal s key default

def bool (s : Fields) (key : String) (default : Bool) : Bool :=
  ((lookup? key s).map toBool).getD default

def text (s : Fields) (key default : String) : Except Fault String := told toText s key default

def llmOf (s : Fields) : Except Fault ModelSettings := do
  let d : ModelSettings := {}
  let model ← text s "model" d.model
  let timeout ← real s "timeout" d.timeout
  let retries ← whole s "num_retries" d.retries
  return { model, enabled := bool s "enabled" d.enabled, timeout, retries }

/-- The names of programs in lower case; an empty value stands for the default ones. -/
def messagingAppsOf (v : Option Value) (default : List String) : Except Fault (List String) :=
  match v with
  | none => .ok default
  | some v =>
    if v.isPresent then do
      let names ← (← keysOf v).mapM fun a => (toText a).mapError .convert
      return names.map Text.lowerString
    else .ok default

def classifierOf (s : Fields) : Except Fault ClassifierSettings := do
  let d : ClassifierSettings := {}
  return {
    maxChars := ← whole s "max_chars" d.maxChars
    longTextChars := ← whole s "long_text_chars" d.longTextChars
    multiLineLines := ← whole s "multi_line_lines" d.multiLineLines
    messageMaxChars := ← whole s "message_max_chars" d.messageMaxChars
    codeScoreSingleLine := ← whole s "code_score_single_line" d.codeScoreSingleLine
    codeScoreMultiLine := ← whole s "code_score_multi_line" d.codeScoreMultiLine
    statisticalDetector := bool s "statistical_detector" d.statisticalDetector
    messagingApps := ← messagingAppsOf (lookup? "messaging_apps" s) d.messagingApps }

def datesOf (s : Fields) : Except Fault DateSettings :=
  let d : DateSettings := {}
  .ok { smart := bool s "smart" d.smart, preferPast := bool s "prefer_past" d.preferPast }

def searchOf (s : Fields) : Except Fault SearchSettings := do
  let d : SearchSettings := {}
  let minMatchRatio ← real s "min_match_ratio" d.minMatchRatio
  let minTermLength ← whole s "min_term_length" d.minTermLength
  let defaultSort ← text s "default_sort" d.defaultSort
  if !sortOrders.contains defaultSort then throw (.unknownOrder defaultSort)
  if !Decimal.isShare minMatchRatio then throw .noShare
  return { minMatchRatio, minTermLength, defaultSort }

def captureOf (s : Fields) : Except Fault CaptureSettings := do
  let d : CaptureSettings := {}
  return { debounceMillis := ← whole s "debounce_ms" d.debounceMillis }

def storageOf (home : String) (s : Fields) : Except Fault StorageSettings := do
  return ⟨← text s "path" (StorageSettings.defaultPath home)⟩

/-- A section read, or its default if it is not there. -/
def sectionOr {α : Type} (fields : Fields) (name : String) (read : Fields → Except Fault α)
    (default : α) : Except Fault α := do
  match ← section? fields name with
  | some s => read s
  | none => return default

/-- The settings in joined layers. -/
def ofFields (home : String) (fields : Fields) : Except Fault Settings := do
  let d := Settings.default home
  return {
    llm := ← sectionOr fields "llm" llmOf d.llm
    classifier := ← sectionOr fields "classifier" classifierOf d.classifier
    dates := ← sectionOr fields "dates" datesOf d.dates
    search := ← sectionOr fields "search" searchOf d.search
    capture := ← sectionOr fields "capture" captureOf d.capture
    storage := ← sectionOr fields "storage" (storageOf home) d.storage }

/-- The settings with those of the environment in their place. -/
def withEnvironment (env : Environment) (s : Settings) : Settings :=
  let given (name : String) : Option String := (env.lookup name).filter (!·.isEmpty)
  { s with
    llm := { s.llm with
      model := (given "SNIPSTACK_MODEL").getD s.llm.model
      enabled := ((env.lookup "SNIPSTACK_LLM_ENABLED").map saysYes).getD s.llm.enabled }
    storage := ⟨(given "SNIPSTACK_DB").getD s.storage.path⟩ }

/-- The settings from a file for all projects, a file of the project and the environment. -/
def load (home : String) (env : Environment) (shared project : Option Layer) : Reading Settings := do
  let base ← match shared with
    | some layer => do
      Reading.of (checkSecrets layer)
      addLayer [] layer
    | none => pure []
  let fields ← match project with
    | some layer => addLayer base layer
    | none => pure base
  return withEnvironment env (← Reading.of (ofFields home fields))

/-! ## A new file -/

/-- A file to be written, and who may do what with it. -/
structure NewFile where
  text : String
  mode : Nat

/-- The file of settings that is written where there is none. Only its owner may read it. -/
def initialFile : NewFile where
  text := "\n".intercalate [
    "# SnipStack global configuration.",
    "# NEVER store API keys here — use environment variables:",
    "#   export OPENAI_API_KEY=sk-...",
    "",
    "llm:",
    "  model: openai/gpt-4o-mini",
    "  enabled: true",
    "",
    "search:",
    "  default_sort: newest",
    ""]
  mode := 0o600

/-- Sees to it that a file of settings is at a path. Gives the file to be written, if none is there,
and the folders made on the way. -/
def ensureFile (d : Disk) (p : FilePath) : Except PathFault (Option NewFile) × List String :=
  match d.reachFolder p with
  | (.error f, folders) => (.error f, folders)
  | (.ok (), folders) =>
    (if p.hasZero then .error .zeroCharacter
      else if p.name?.any (Disk.maxName < ·.utf8ByteSize) then .error .longName
      else if d.isFile p || d.isFolder p then .ok none
      else .ok (some initialFile), folders)

end Settings

end Clipboard
