import Clipboard.Cli.Invocation
import Clipboard.Program.Number
import Clipboard.Text.Split

/-!
A reader of command lines. Options stand with and without values, and may stand between operands; after `--` all is
an operand. It is one way to read them: what the commands do is told for every reader.
-/

namespace Clipboard.Program

open Cli (GlobalOptions Invocation Usage)
open Text

/-! ## Options and operands -/

/-- How an option is written, and whether a value belongs to it. -/
structure OptionForm where
  name : String
  short : Option Char := none
  takesValue : Bool := false

structure Arguments where
  /-- The options with their values, in order. -/
  options : List (String × String) := []
  operands : List String := []

namespace Arguments

def has (a : Arguments) (name : String) : Bool := a.options.any (·.1 == name)

/-- The last value of an option. -/
def value? (a : Arguments) (name : String) : Option String := a.options.reverse.lookup name

/-- Options that an argument settles, and one whose value is the next argument. -/
abbrev Settled := List (String × String) × Option String

/-- Letters after a single dash. The rest after a letter that takes a value is the value. -/
def letters? (forms : List OptionForm) : List Char → Option Settled
  | [] => some ([], none)
  | c :: cs =>
    match forms.find? (·.short == some c) with
    | none => none
    | some f =>
      if f.takesValue then
        if cs.isEmpty then some ([], some f.name) else some ([(f.name, .ofList cs)], none)
      else (letters? forms cs).map fun (os, next) => ((f.name, "") :: os, next)

/-- An option in its long form, or letters after a single dash. -/
def option? (forms : List OptionForm) (arg : List Char) : Option Settled :=
  let (name, explicit) := cutAt '=' arg
  match forms.find? fun f => "--".toList ++ f.name.toList == name with
  | some f =>
    if f.takesValue then
      match explicit with
      | some v => some ([(f.name, .ofList v)], none)
      | none => some ([], some f.name)
    else if explicit.isSome then none
    else some ([(f.name, "")], none)
  | none => if "--".toList.isPrefixOf arg then none else letters? forms (arg.drop 1)

def isOption (arg : String) : Bool := arg.toList.head? == some '-' && 1 < arg.length

/-- Reads arguments, with an option that waits for its value. Unless they are mixed, all from the
first operand on are operands. -/
def read? (forms : List OptionForm) (mixed : Bool) : Option String → List String → Option Arguments
  | some _, [] => none
  | none, [] => some {}
  | some name, v :: rest => do
    let a ← read? forms mixed none rest
    return { a with options := (name, v) :: a.options }
  | none, arg :: rest =>
    if arg == "--" then some { operands := rest }
    else if isOption arg then do
      let (settled, next) ← option? forms arg.toList
      let a ← read? forms mixed next rest
      return { a with options := settled ++ a.options }
    else if mixed then do
      let a ← read? forms mixed none rest
      return { a with operands := arg :: a.operands }
    else some { operands := arg :: rest }

end Arguments

/-! ## Commands -/

namespace CommandLine

def helpForm : OptionForm := { name := "help" }

def viewForms : List OptionForm :=
  [{ name := "view", takesValue := true }, { name := "sort", takesValue := true }]

def appForm : OptionForm := { name := "app", short := some 'a', takesValue := true }

/-- The options of a command. -/
def formsOf : String → List OptionForm
  | "capture" => [appForm, { name := "stdin" }]
  | "list" => viewForms
  | "search" => { name := "smart" } :: viewForms
  | "classify" => [appForm]
  | "resolve-date" => [{ name := "smart" }]
  | "clear" => [{ name := "yes", short := some 'y' }]
  | _ => []

/-- A command with its arguments, whose number has to be right. -/
def ofArguments? (command : String) (a : Arguments) : Option Invocation :=
  let view := (a.value? "view").getD "all"
  match command, a.operands with
  | "capture", [] => some (.capture none (a.value? "app") (a.has "stdin"))
  | "capture", [text] => some (.capture (some text) (a.value? "app") (a.has "stdin"))
  | "list", [] => some (.list view (a.value? "sort"))
  | "search", q :: qs => some (.search (q :: qs) view (a.value? "sort") (a.has "smart"))
  | "show", [id] => some (.show id)
  | "classify", [text] => some (.classify text (a.value? "app"))
  | "resolve-date", w :: ws => some (.resolveDate (w :: ws) (a.has "smart"))
  | "fav", [id] => some (.favorite id)
  | "delete", [id] => some (.delete id)
  | "clear", [] => some (.clear (a.has "yes"))
  | "demo", [] => some .demo
  | "version", [] => some .version
  | "note add", [id, text] => some (.addNote id text)
  | "note remove", [id, number] => (readNumber? number).map (.removeNote id)
  | _, _ => none

def commands : List String :=
  ["capture", "list", "search", "show", "classify", "resolve-date", "fav", "delete", "clear", "demo",
    "version"]

def noteCommands : List String := ["add", "remove"]

/-- Reads the arguments behind the name of a command. -/
def ofCommand (command : String) (args : List String) : Except Usage Invocation :=
  match Arguments.read? (helpForm :: formsOf command) true none args with
  | none => .error .wrong
  | some a =>
    if a.has "help" then .error .help
    else match ofArguments? command a with
      | some i => .ok i
      | none => .error .wrong

/-- What is asked for first, help or version, if one of them is. -/
def asked? (a : Arguments) : Option Usage :=
  a.options.findSome? fun (name, _) =>
    if name == "help" then some .help else if name == "version" then some .version else none

/-- The answer to operands that start with no command. They are read as options once more, and may
ask for something. -/
def noCommand (forms : List OptionForm) (operands : List String) : Usage :=
  ((Arguments.read? forms false none operands).bind asked?).getD .wrong

/-- The commands for notes stand behind a name of their own. -/
def ofNote (args : List String) : Except Usage Invocation :=
  match Arguments.read? [helpForm] false none args with
  | none => .error .wrong
  | some a => match asked? a, a.operands with
    | some usage, _ => .error usage
    | none, name :: rest =>
      if noteCommands.contains name then ofCommand ("note " ++ name) rest
      else .error (noCommand [helpForm] (name :: rest))
    | none, [] => .error .wrong

def globalForms : List OptionForm :=
  [helpForm, { name := "version" }, { name := "db", takesValue := true }, { name := "offline" },
    { name := "verbose", short := some 'v' }]

/-- Reads the options for all commands; the path of a store has no zero character. -/
def globalsOf (a : Arguments) : Except Usage GlobalOptions :=
  match asked? a with
  | some usage => .error usage
  | none =>
    if (a.value? "db").any (·.toList.contains '\x00') then .error .wrong
    else .ok { database := a.value? "db", offline := a.has "offline" }

/-- Reads a whole command line. Help and version are given as soon as they are asked for. -/
def read (args : List String) : Except Usage (GlobalOptions × Invocation) := do
  match Arguments.read? globalForms false none args with
  | none => throw .wrong
  | some a =>
    let globals ← globalsOf a
    let invocation ← match a.operands with
      | [] => throw .wrong
      | name :: rest =>
        if name == "note" then ofNote rest
        else if commands.contains name then ofCommand name rest
        else throw (noCommand globalForms a.operands)
    return (globals, invocation)

end CommandLine

end Clipboard.Program
