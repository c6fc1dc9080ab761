import Clipboard.Cli.Session
import Clipboard.Collection.Demo
import Clipboard.Decimal.Fixed

/-!
The commands, and the run of a whole command line.
-/

namespace Clipboard.Cli

open Running

/-- What is said when the program is asked for its version. -/
def versionText : String := "snipstack 0.1.0\n"

/-- A choice that has to be one of several. -/
def checkChoice (option value : String) (choices : List String) : Running Unit :=
  if choices.contains value then pure ()
  else do
    say (Message.unknownChoice option value choices)
    exit 1

/-- The order of results: the wanted one, or the one of the settings. -/
def orderFor (s : Session) (wanted : Option String) : Running String := do
  let order := (wanted.filter (!·.isEmpty)).getD s.settings.search.defaultSort
  checkChoice "sort order" order sortOrders
  return order

/-- Text from the standard input, where every line ends in a line feed. -/
def plainLines : List Char → List Char
  | [] => []
  | '\r' :: '\n' :: cs => '\n' :: plainLines cs
  | c :: cs => (if c == '\r' then '\n' else c) :: plainLines cs

/-- The lines of the standard input. -/
def inputLines (input : String) : List (List Char) :=
  let ls := Text.pieces (· == '\n') (plainLines input.toList)
  if ls.getLast? == some [] then ls.dropLast else ls

/-- Asks until the answer is yes or no; an empty answer is no. Gives what is written meanwhile,
and no answer if the input ends. -/
def confirm (question : String) : List (List Char) → String × Option Bool
  | [] => (question ++ " [y/N]: ", none)
  | l :: ls =>
    let written := question ++ " [y/N]: " ++ .ofList l ++ "\n"
    let answer := String.ofList (Text.trim (Text.lower l))
    if answer == "y" || answer == "yes" then (written, some true)
    else if answer == "n" || answer == "no" || answer.isEmpty then (written, some false)
    else
      let (rest, r) := confirm question ls
      (written ++ "Error: invalid input\n" ++ rest, r)

def render {α : Type} (r : Except RenderFault α) : Running α := orCrash Crash.render r

def idOf (s : Snippet) : Running String := render (shortId s.id)

/-- The name of a program, if one is given. -/
def givenApp (app : Option String) : Option String := app.filter (!·.isEmpty)

def runCapture (x : Surroundings) (g : GlobalOptions) (text app : Option String) (fromInput : Bool) :
    Running Unit := do
  let content := if fromInput then .ofList (plainLines x.input.toList) else text.getD ""
  if Text.isBlank content.toList then
    say Message.emptyCapture
    exit 1
  let (session, c) ← Session.start x g
  let settings : HandlerSettings :=
    { classifier := session.classifier, newId := x.newId, now := x.now
      window := session.settings.capture.window?.getD 0.0 }
  let (r, h) ← consult (Handler.handle x.outside settings { collection := c }
    { text := content, app := givenApp app } x.clock)
  match ← session.settle (r, h.collection) with
  | (none, _) => say "[dim]Already captured — nothing added.[/]"
  | (some s, c) =>
    let tags ← render (joined s.tags)
    say ("[green]✓[/] Captured [bold]" ++ s.kind.name ++ "[/] (" ++ tags ++ ")")
    print (← render (panelOf s))
    sayWarning c

def runList (x : Surroundings) (g : GlobalOptions) (view : String) (order : Option String) :
    Running Unit := do
  checkChoice "view" view Search.views
  let (session, c) ← Session.start x g
  let order ← orderFor session order
  let found ← orCrash Crash.search
    (c.search session.classifier session.settings.search.minMatchRatio {} view order)
  if found.isEmpty then
    say "[yellow]No snippets yet.[/]\n  Run:  snipstack capture \"some text\""
  else print (← render (tableOf found))

def runSearch (x : Surroundings) (g : GlobalOptions) (queries : List String) (view : String)
    (order : Option String) (smart : Bool) : Running Unit := do
  checkChoice "view" view Search.views
  let (session, c) ← Session.start x g
  let order ← orderFor session order
  let filters ← orCrash Crash.resolve (← consult (session.compiler.compileAll x.outside x.now none
    (queries.map (·, smart))).run)
  let filter := filters.getLast?.getD {}
  match filter.dateLabel.filter (!·.isEmpty) with
  | some label =>
    say ("Date: [bold]" ++ label ++ "[/]"
      ++ if filter.dateRange.isSome then "" else " [dim](matched as text)[/]")
  | none => pure ()
  let found ← orCrash Crash.search
    (c.search session.classifier session.settings.search.minMatchRatio filter view order)
  if found.isEmpty then say "[yellow]No matching snippets.[/]"
  else print (← render (tableOf found s!"Results ({found.length})"))

def runShow (x : Surroundings) (g : GlobalOptions) (id : String) : Running Unit := do
  let (_, c) ← Session.start x g
  print (← render (panelOf (← findSnippet c id)))

/-- What a text would be, without keeping it. -/
def runClassify (x : Surroundings) (g : GlobalOptions) (text : String) (app : Option String) :
    Running Unit := do
  let (settings, offline) ← loadSettings x g
  match ← consult ((classifierFor x.detector settings offline).classify x.outside text (givenApp app)) with
  | none =>
    say "[yellow]Empty text — nothing to classify.[/]"
    exit 1
  | some r =>
    let given (label : String) (v : Option String) : List (List String) :=
      ((v.filter (!·.isEmpty)).map fun v => [label, v]).toList
    print (.table none none (
      [["Type", "[bold]" ++ r.kind.name ++ "[/]"], ["Tags", ", ".intercalate r.tags]]
      ++ given "Language" (r.language.map (·.name)) ++ given "Contact" r.contact
      ++ given "Colour" (r.color.map (·.value))
      ++ [["Confidence", Decimal.fixed 2 r.confidence], ["Decided by", r.reason.name]]))

def runResolveDate (x : Surroundings) (g : GlobalOptions) (phrase : List String) (smart : Bool) :
    Running Unit := do
  let (settings, offline) ← loadSettings x g
  let r ← consult ((resolverFor settings offline).resolve x.outside x.now (" ".intercalate phrase)
    smart).run
  match ← orCrash Crash.resolve r with
  | .found _ label strategy =>
    say ("[green]✓[/] " ++ label ++ "  [dim](" ++ strategy.name ++ ")[/]")
  | .unresolved label =>
    say ("[yellow]Could not resolve[/] '" ++ label
      ++ "'.\n  /date searches will match it as text against snippet timestamps.")
    exit 1

def runAddNote (x : Surroundings) (g : GlobalOptions) (id text : String) : Running Unit := do
  let (session, c) ← Session.start x g
  let s ← findSnippet c id
  let (noted, c) ← session.settle (c.addNote s.id (.text text))
  say (s!"[green]✓[/] Note {noted.notes.length} added to " ++ (← idOf s))
  sayWarning c

def runRemoveNote (x : Surroundings) (g : GlobalOptions) (id : String) (number : Int) :
    Running Unit := do
  let (session, c) ← Session.start x g
  let s ← findSnippet c id
  if number < 1 || s.notes.length < number then
    say (Message.noSuchNote number s.notes.length)
    exit 1
  let (note, c) ← session.settle (c.removeNote s.id (number - 1))
  say ("[green]✓[/] Removed note: " ++ (← render (previewOf note)))
  sayWarning c

def runFavorite (x : Surroundings) (g : GlobalOptions) (id : String) : Running Unit := do
  let (session, c) ← Session.start x g
  let s ← findSnippet c id
  let (isFavorite, c) ← session.settle (c.toggleFavorite s.id)
  if isFavorite then say ("[yellow]★[/] " ++ (← idOf s) ++ " added to favourites")
  else say ("[dim]☆[/] " ++ (← idOf s) ++ " removed from favourites")
  sayWarning c

def runDelete (x : Surroundings) (g : GlobalOptions) (id : String) : Running Unit := do
  let (session, c) ← Session.start x g
  let s ← findSnippet c id
  let (_, c) ← session.settle (c.delete s.id)
  say ("[green]✓[/] Deleted " ++ (← idOf s) ++ ": " ++ (← render (previewOf s.content)))
  sayWarning c

def runClear (x : Surroundings) (g : GlobalOptions) (confirmed : Bool) : Running Unit := do
  let (session, c) ← Session.start x g
  let count := c.snippets.length
  if count == 0 then
    say "[dim]Nothing to delete.[/]"
    exit 0
  if !confirmed then
    let (written, answer) := confirm s!"Delete all {count} snippets?" (inputLines x.input)
    write written
    match answer with
    | none => exit 1
    | some false =>
      say "[dim]Cancelled.[/]"
      exit 0
    | some true => pure ()
  let (_, c) ← session.settle c.deleteAll
  say s!"[green]✓[/] Deleted {count} snippets"
  sayWarning c

def runDemo (x : Surroundings) (g : GlobalOptions) : Running Unit := do
  let (session, c) ← Session.start x g
  let (added, c) ← session.settle (c.addDemo x.newId)
  if added.isEmpty then
    say "[dim]Demo snippets are already in the collection.[/]"
    exit 0
  print (← render (tableOf added s!"Added {added.length} demo snippets"))
  sayWarning c

def Invocation.run (x : Surroundings) (g : GlobalOptions) : Invocation → Running Unit
  | capture text app fromInput => runCapture x g text app fromInput
  | list view order => runList x g view order
  | search queries view order smart => runSearch x g queries view order smart
  | .show id => runShow x g id
  | classify text app => runClassify x g text app
  | resolveDate phrase smart => runResolveDate x g phrase smart
  | addNote id text => runAddNote x g id text
  | removeNote id number => runRemoveNote x g id number
  | favorite id => runFavorite x g id
  | delete id => runDelete x g id
  | clear confirmed => runClear x g confirmed
  | demo => runDemo x g
  | version => write versionText

/-- What a command line leaves behind. -/
structure Report where
  exitCode : Nat
  crash : Option Crash := none
  printed : List Printed
  written : String
  world : World

/-- Runs a command line. -/
def runCommandLine (x : Surroundings) (world : World) (args : List String) : Report :=
  match x.parse args with
  | .error .wrong => { exitCode := 2, printed := [], written := "", world }
  | .error .help => { exitCode := 0, printed := [], written := "", world }
  | .error .version => { exitCode := 0, printed := [], written := versionText, world }
  | .ok (g, invocation) =>
    let (result, p) := (invocation.run x g).run.run { world }
    let report (exitCode : Nat) (crash : Option Crash) : Report :=
      { exitCode, crash, printed := p.printed, written := p.written, world := p.world }
    match result with
    | .ok () => report 0 none
    | .error (.exit code) => report code none
    | .error (.crash c) => report 1 (some c)

end Clipboard.Cli
