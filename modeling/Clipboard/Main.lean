import Clipboard.Cli.Plain
import Clipboard.Cli.Run
import Clipboard.Program.CommandLine
import Clipboard.Program.Evidence
import Clipboard.Program.Outline.Basic
import Clipboard.Snippet.Identifier
import Clipboard.Store.Text
import Std.Time.DateTime.Timestamp

/-!
The program. Settings and store are files, moments are in universal time. Neither a model nor a
parser of dates is at hand, so rules and known phrases decide.
-/

namespace Clipboard.Cli

/-- An outside that has no answers. -/
def silence : Remote.Outside where
  reply _ _ := .failure "NoReply" ""
  search _ _ := .ok none
  period _ _ := .ok none

/-- The moment so many seconds after the start of 1970. -/
def momentOfSeconds (n : Int) : Except Calendar.Fault Calendar.Moment := do
  let date ← Calendar.Date.ofDayNumber (719163 + n.fdiv 86400)
  let second := (n.fmod 86400).toNat
  return ⟨date, ← Calendar.Time.make (second / 3600) (second / 60 % 60) (second % 60) 0 none⟩

/-- The folder of a file, if the path names one. -/
def folderOf? (path : String) : Option String :=
  let parts := Text.pieces (· == '/') path.toList
  if parts.length ≤ 1 then none else some (.ofList (Text.join ['/'] parts.dropLast))

def readFile? (path : String) : IO (Option String) := do
  try return some (← IO.FS.readFile path) catch _ => return none

/-- A file of settings, if it is there. -/
def readLayer? (path : String) : IO (Option Settings.Layer) := do
  match ← readFile? path with
  | none => return none
  | some text => match Program.Outline.parse? text with
    | some value => return some ⟨path, value⟩
    | none => throw (IO.userError ("cannot read the settings in " ++ path))

/-- The stores of a world with the one file; a file that is not there is no store. -/
def readStores (path : String) : IO (List (String × Store)) := do
  match ← readFile? path with
  | none => return []
  | some text => match Store.parse? text with
    | some store => return [(path, store)]
    | none => throw (IO.userError ("cannot read the store in " ++ path))

def writeStore (path : String) (store : Store) : IO Unit := do
  if let some folder := folderOf? path then IO.FS.createDirAll folder
  IO.FS.writeFile path store.render

/-- The named variables that are set. -/
def readVariables (names : List String) : IO Remote.Environment :=
  names.filterMapM fun name => do return (← IO.getEnv name).map (name, ·)

def settingVariables : List String := ["SNIPSTACK_MODEL", "SNIPSTACK_DB", "SNIPSTACK_LLM_ENABLED"]

/-- Identifiers for all that one command can add. -/
def drawIdentifiers : IO (List String) :=
  (List.replicate 8 ()).mapM fun _ => do
    return Identifier.ofBytes (← IO.getRandomBytes 16).toList

/-- The standard input up to its end. -/
partial def readInput (input : IO.FS.Stream) : IO String := do
  let line ← input.getLine
  if line.isEmpty then return "" else return line ++ (← readInput input)

/-- The surroundings of a command on this machine. -/
def readSurroundings (readsInput : Bool) : IO Surroundings := do
  let home := (← IO.getEnv "HOME").getD "."
  let now ← match momentOfSeconds (← Std.Time.Timestamp.now).toSecondsSinceUnixEpoch.val with
    | .ok now => pure now
    | .error f => throw (IO.userError f.message)
  let identifiers ← drawIdentifiers
  let x : Surroundings := {
    parse := Program.CommandLine.read
    outside := silence
    detector := Program.detector
    now, home
    newId := fun n => (identifiers[n]?).getD ""
    environment := ← readVariables settingVariables
    sharedSettings := ← readLayer? (home ++ "/.snipstack/config.yaml")
    projectSettings := ← readLayer? "snipstack.yaml"
    input := ← if readsInput then do readInput (← IO.getStdin) else pure "" }
  match settingsIn x with
  | .error _ => return x
  | .ok s =>
    let keys ← readVariables (Remote.keyVariable? (Remote.providerOf s.llm.model)).toList
    return { x with environment := x.environment ++ keys }

/-- Shows what a command has printed, and what ended it. -/
def present (r : Report) : IO Unit := do
  for line in r.printed.flatMap Printed.lines do IO.println line
  IO.print r.written
  if let some c := r.crash then IO.eprintln ("error: " ++ c.message)

end Clipboard.Cli

open Clipboard.Cli in
def main (args : List String) : IO UInt32 := do
  let invocation := Clipboard.Program.CommandLine.read args
  match invocation with
  | .error .wrong => IO.eprintln "usage: snipstack [--db PATH] [--offline] COMMAND [ARGUMENTS]"
  | _ => pure ()
  let readsInput := match invocation with
    | .ok (_, i) => i.readsInput
    | .error _ => false
  let x ← readSurroundings readsInput
  let path? := match invocation, settingsIn x with
    | .ok (g, _), .ok s => (storePath x.home g s).toOption.map (·.resolved.text)
    | _, _ => none
  let stores ← match path? with
    | some path => readStores path
    | none => pure []
  let report := runCommandLine x { stores } args
  for (path, store) in report.world.stores do writeStore path store
  present report
  return report.exitCode.toUInt32
