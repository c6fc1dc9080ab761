import Clipboard.Text.Slice

/-!
What is said to the user when something goes wrong: what it is and what to do about it.
-/

namespace Clipboard.Cli.Message

def error (what advice : String) : String := "[red]Error:[/] " ++ what ++ "\n  " ++ advice

def invalidSettings (detail : String) : String :=
  error "Invalid configuration." (detail ++ "\n  Fix the file and run the command again.")

def emptyCapture : String :=
  error "Nothing to capture: the text is empty." "Pass the text as an argument or pipe it in with --stdin."

def notFound (id : String) : String :=
  error ("No snippet matches id '" ++ id ++ "'.") "Run:  snipstack list  to see snippet ids."

/-- An identifier that several others begin with; the first five of them are shown in part. -/
def ambiguous (id : String) (candidates : List String) : String :=
  let shown := (candidates.take 5).map fun c => String.ofList (c.toList.take 12)
  error ("Id prefix '" ++ id ++ s!"' matches {candidates.length} snippets ("
    ++ ", ".intercalate shown ++ ").") "Type more characters of the id."

def noSuchNote (number : Int) (count : Int) : String :=
  if count == 0 then s!"[red]Error:[/] Note {number} does not exist: the snippet has no notes."
  else error s!"Note {number} does not exist." s!"Valid note numbers: 1-{count}"

def unknownChoice (option value : String) (choices : List String) : String :=
  error ("Unknown " ++ option ++ " '" ++ value ++ "'.") ("Use one of: " ++ ", ".intercalate choices)

def notSaved (warning : String) : String :=
  "[yellow]Warning:[/] " ++ warning ++ "\n  Free disk space or pass a writable database with --db."

def noKey (detail : String) : String :=
  "[yellow]Warning:[/] " ++ detail ++ " Using local rules only.\n  Pass --offline to silence this."

end Clipboard.Cli.Message
