import Clipboard.Cli.Invocation
import Clipboard.Cli.Message
import Clipboard.Cli.Render
import Clipboard.Collection.Handler
import Clipboard.Settings.Layers
import Clipboard.Store.Place

/-!
The session of one command: settings, the stores on disk, and what the command prints. A command
ends early with an exit code or by a fault that nobody handles.
-/

namespace Clipboard.Cli

open Remote (Outside Consult)
open Calendar (Resolver)

/-- What a command finds when it starts. -/
structure Surroundings where
  parse : CommandLineReader
  outside : Outside
  detector : Detector := .silent
  now : Calendar.Moment
  /-- The n-th identifier to be drawn. -/
  newId : Nat → String
  /-- Seconds of a steady clock. -/
  clock : Float := 0.0
  home : String
  environment : Remote.Environment := []
  sharedSettings : Option Settings.Layer := none
  projectSettings : Option Settings.Layer := none
  /-- The standard input. -/
  input : String := ""
  /-- What goes wrong with the stores. -/
  failures : Failures := {}

/-- What outlives a command. -/
structure World where
  /-- The stores by the texts of their resolved paths. -/
  stores : List (String × Store) := []
  /-- The folders that were made. -/
  folders : List String := []
  /-- How many identifiers were drawn. -/
  drawn : Nat := 0
  transcript : Remote.Transcript := {}

/-- A fault that nobody handles. -/
inductive Crash
  | settings (f : Settings.Fault)
  | collection (f : Collection.Fault)
  | search (f : Search.Fault)
  | resolve (f : Calendar.ResolveFault)
  | render (f : RenderFault)
  | path (f : PathFault)
  /-- The time in which repetitions are stopped is longer than floating-point numbers can say. -/
  | hugeWindow

def Crash.message : Crash → String
  | settings f => f.message
  | collection f => f.message
  | search f => f.message
  | resolve f => f.message
  | render f => f.message
  | path f => f.message
  | hugeWindow => "int too large to convert to float"

inductive Stop
  | exit (code : Nat)
  | crash (c : Crash)

/-- A command in progress: what it has printed and written. -/
structure Progress where
  world : World
  printed : List Printed := []
  written : String := ""

abbrev Running := ExceptT Stop (StateM Progress)

namespace Running

def print (p : Printed) : Running Unit :=
  modify fun s => { s with printed := s.printed ++ [p] }

def say (s : String) : Running Unit := print (.text s)

/-- Writes to the standard output as it is. -/
def write (t : String) : Running Unit := modify fun s => { s with written := s.written ++ t }

def exit {α : Type} (code : Nat) : Running α := throw (.exit code)

def crash {α : Type} (c : Crash) : Running α := throw (.crash c)

/-- A result, or the crash that a fault makes. -/
def orCrash {ε α : Type} (f : ε → Crash) : Except ε α → Running α
  | .ok a => pure a
  | .error e => crash (f e)

def consult {α : Type} (m : Consult α) : Running α := do
  let s ← get
  let (a, transcript) := m.run s.world.transcript
  set { s with world := { s.world with transcript } }
  return a

end Running

open Running

/-! ## Settings -/

/-- The settings that hold in the surroundings. -/
def settingsIn (x : Surroundings) : Except Settings.Fault Settings :=
  ((Settings.load x.home x.environment x.sharedSettings x.projectSettings).run.run []).1

/-- The settings, and whether no model may be asked. A missing key is said, and then no model is
asked. -/
def loadSettings (x : Surroundings) (g : GlobalOptions) : Running (Settings × Bool) := do
  let settings ← match settingsIn x with
    | .ok s => pure s
    | .error f =>
      if f.isRule then
        say (Message.invalidSettings f.message)
        exit 1
      else crash (.settings f)
  if g.offline || !settings.llm.enabled then return (settings, true)
  match Remote.checkKey x.environment settings.llm.model with
  | .ok () => return (settings, false)
  | .error m =>
    say (Message.noKey m.message)
    return (settings, true)

def classifierFor (detector : Detector) (s : Settings) (offline : Bool) : Classifier where
  settings := s.classifier
  detector
  labeller := if offline then none else some
    { model := s.llm.model, maxChars := s.classifier.maxChars, timeout := some s.llm.timeout,
      retries := s.llm.retries }

def resolverFor (s : Settings) (offline : Bool) : Resolver where
  guesser := if offline then none else some
    { model := s.llm.model, timeout := some s.llm.timeout, retries := s.llm.retries }
  preferPast := s.dates.preferPast

/-! ## Stores -/

/-- The path of a store that is kept in memory only. -/
def memoryPath : String := ":memory:"

/-- Where the store is: at the path given with the command, or at the one of the settings, which
may start in the home directory. -/
def storePath (home : String) (g : GlobalOptions) (s : Settings) : Except PathFault FilePath :=
  match g.database with
  | some path => .ok (.ofString path)
  | none => match (FilePath.ofString s.storage.path).expandHome? home with
    | some path => .ok path
    | none => .error .noHome

/-- The disk as it is in the surroundings. -/
def diskIn (x : Surroundings) (w : World) : Disk where
  stores := w.stores.map (·.1)
  others := (x.sharedSettings.toList ++ x.projectSettings.toList).map fun layer =>
    (FilePath.ofString layer.path).resolved.text
  folders := (FilePath.ofString x.home).withFolders.map (·.resolved.text) ++ w.folders

/-- Goes to the store at a path and gives the text of its resolved path, none if it is kept in
memory. -/
def reachStore (x : Surroundings) (path : FilePath) : Running (Option String) := do
  if path.text == memoryPath then return none
  let world := (← get).world
  let (reached, folders) := (diskIn x world).reach path
  modify fun p => { p with world := { p.world with folders := p.world.folders ++ folders } }
  orCrash Crash.path reached
  return some path.resolved.text

/-- The stores with the one at a path set. -/
def setStore (path : String) (store : Store) : List (String × Store) → List (String × Store)
  | [] => [(path, store)]
  | (p, s) :: rest => if p == path then (p, store) :: rest else (p, s) :: setStore path store rest

/-- A session with the collection of one store. -/
structure Session where
  settings : Settings
  classifier : Classifier
  compiler : Compiler
  /-- The path of the store, unless it is kept in memory. -/
  place : Option String

namespace Session

/-- Puts the collection back into the world. -/
def keep (s : Session) (c : Collection) : Running Unit :=
  modify fun p =>
    let store : Store := { c.store with failures := {} }
    { p with world := { p.world with
        drawn := c.drawn
        stores := match s.place with
          | some path => setStore path store p.world.stores
          | none => p.world.stores } }

/-- Settings, the store, and the collection loaded from it. A store that is not there is made. -/
def start (x : Surroundings) (g : GlobalOptions) : Running (Session × Collection) := do
  let (settings, offline) ← loadSettings x g
  let path ← orCrash Crash.path (storePath x.home g settings)
  let place ← reachStore x path
  let classifier := classifierFor x.detector settings offline
  let session : Session :=
    { settings, classifier, place
      compiler :=
        { dates := resolverFor settings offline, labeller := classifier.labeller
          minTermLength := settings.search.minTermLength, smart := settings.dates.smart } }
  let world := (← get).world
  let found := (place.bind fun p => world.stores.lookup p).getD {}
  let c : Collection := { store := { found with failures := x.failures }, drawn := world.drawn }
  session.keep c
  let (loaded, c) := c.load
  let _ ← orCrash Crash.collection loaded
  if settings.capture.window?.isNone then crash .hugeWindow
  return (session, c)

/-- The outcome of an operation, with the collection put back. -/
def settle {α : Type} (s : Session) (o : Collection.Outcome α) : Running (α × Collection) := do
  s.keep o.2
  return (← orCrash Crash.collection o.1, o.2)

end Session

/-- Whether an identifier begins with a text; it has to be a text itself. -/
def idStartsWith (start : String) (s : Snippet) : Except RenderFault Bool :=
  match s.id.runs? with
  | some runs => .ok (start.toList.isPrefixOf (runs.headD []))
  | none => .error .notText

/-- The snippets whose identifier begins with a text. -/
def candidates (start : String) : List Snippet → Except RenderFault (List Snippet)
  | [] => .ok []
  | s :: ss => do
    let keep ← idStartsWith start s
    let rest ← candidates start ss
    return if keep then s :: rest else rest

/-- The snippet with an identifier, or with the only one that begins so. -/
def findSnippet (c : Collection) (id : String) : Running Snippet := do
  match c.get? (.text id) with
  | some s => return s
  | none =>
    match ← orCrash Crash.render (candidates id c.snippets) with
    | [s] => return s
    | [] =>
      say (Message.notFound id)
      exit 1
    | ss =>
      say (Message.ambiguous id (ss.map (·.id.asText)))
      exit 1

/-- Says that the last change was not saved. -/
def sayWarning (c : Collection) : Running Unit :=
  match c.lastWarning with
  | some w => if w.isEmpty then pure () else say (Message.notSaved w)
  | none => pure ()

end Clipboard.Cli
