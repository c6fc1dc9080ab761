/-!
What the user asks for: the options for all commands, a command, and its own arguments. How a command line is
read is not part of the program.
-/

namespace Clipboard.Cli

inductive Invocation
  /-- Keep a text, given or read from the input. -/
  | capture (text app : Option String) (fromInput : Bool)
  | list (view : String) (order : Option String)
  | search (queries : List String) (view : String) (order : Option String) (smart : Bool)
  | show (id : String)
  | classify (text : String) (app : Option String)
  | resolveDate (phrase : List String) (smart : Bool)
  | addNote (id text : String)
  | removeNote (id : String) (number : Int)
  | favorite (id : String)
  | delete (id : String)
  | clear (confirmed : Bool)
  | demo
  | version

/-- Whether the command may read the standard input. -/
def Invocation.readsInput : Invocation → Bool
  | capture _ _ fromInput => fromInput
  | clear confirmed => !confirmed
  | _ => false

/-- The options before the command. -/
structure GlobalOptions where
  database : Option String := none
  offline : Bool := false

/-- Why nothing is run. -/
inductive Usage
  /-- The arguments cannot be understood. -/
  | wrong
  | help
  | version
  deriving DecidableEq, Repr

/-- How a command line is read. -/
abbrev CommandLineReader := List String → Except Usage (GlobalOptions × Invocation)

end Clipboard.Cli
