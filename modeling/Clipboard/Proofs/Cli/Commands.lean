import Clipboard.Proofs.Cli.Session

/-!
What commands and command lines keep of the world, given what their parts keep: the start, what is asked
of the outside, and the putting back of the collection.
-/

namespace Clipboard.Cli.Running

variable {γ : Type}

/-! ## Commands that only read -/

section

variable {view : World → γ} {x : Surroundings} {g : GlobalOptions}

theorem keeps_showing (found : Except Search.Fault (List Snippet)) (nothing : String)
    (title : List Snippet → String) : Keeps view (do
      let ss ← orCrash Crash.search found
      if ss.isEmpty then say nothing else print (← render (tableOf ss (title ss)))) := by
  refine (Keeps.orCrash ..).bind fun ss _ => ?_
  split
  · exact .say nothing
  · exact (Keeps.orCrash ..).bind fun _ _ => .print _

theorem keeps_runList (hstart : Keeps view (Session.start x g)) (name : String)
    (order : Option String) : Keeps view (runList x g name order) :=
  (Keeps.checkChoice ..).bind fun _ _ => hstart.bind fun _ _ =>
    (Keeps.orderFor ..).bind fun _ _ => keeps_showing _ _ fun _ => "Snippets"

theorem keeps_runSearch (hstart : Keeps view (Session.start x g))
    (hcompile : ∀ session c, (Session.start x g).Gives (session, c) → ∀ inputs,
      Keeps view (consult (session.compiler.compileAll x.outside x.now none inputs).run))
    (queries : List String) (name : String) (order : Option String) (smart : Bool) :
    Keeps view (runSearch x g queries name order smart) := by
  refine (Keeps.checkChoice ..).bind fun _ _ => hstart.bind fun (session, c) hgives => ?_
  refine (Keeps.orderFor ..).bind fun _ _ => (hcompile session c hgives _).bind fun _ _ => ?_
  refine (Keeps.orCrash ..).bind fun filters _ => ?_
  dsimp only
  split
  · exact (Keeps.say _).bind fun _ _ => keeps_showing _ _ fun ss => s!"Results ({ss.length})"
  · exact keeps_showing _ _ fun ss => s!"Results ({ss.length})"

theorem keeps_runShow (hstart : Keeps view (Session.start x g)) (id : String) :
    Keeps view (runShow x g id) :=
  hstart.bind fun _ _ => (Keeps.findSnippet ..).bind fun _ _ =>
    (Keeps.orCrash ..).bind fun _ _ => .print _

theorem keeps_runClassify (hload : Keeps view (loadSettings x g))
    (hclassify : ∀ s offline, (loadSettings x g).Gives (s, offline) → ∀ text app,
      Keeps view (consult ((classifierFor x.detector s offline).classify x.outside text app)))
    (text : String) (app : Option String) : Keeps view (runClassify x g text app) := by
  refine hload.bind fun (s, offline) hgives => (hclassify s offline hgives _ _).bind fun r _ => ?_
  cases r with
  | none => exact (Keeps.say _).bind fun _ _ => .exit 1
  | some r => exact .print _

theorem keeps_runResolveDate (hload : Keeps view (loadSettings x g))
    (hresolve : ∀ s offline, (loadSettings x g).Gives (s, offline) → ∀ phrase smart,
      Keeps view (consult ((resolverFor s offline).resolve x.outside x.now phrase smart).run))
    (phrase : List String) (smart : Bool) : Keeps view (runResolveDate x g phrase smart) := by
  refine hload.bind fun (s, offline) hgives => (hresolve s offline hgives _ _).bind fun _ _ => ?_
  refine (Keeps.orCrash ..).bind fun r _ => ?_
  cases r with
  | found range label strategy => exact .say _
  | unresolved label => exact (Keeps.say _).bind fun _ _ => .exit 1

end

/-! ## Captures -/

section

variable (x : Surroundings) (g : GlobalOptions)

/-- The text that a capture is about. -/
def contentOf (text : Option String) (fromInput : Bool) : String :=
  if fromInput then .ofList (plainLines x.input.toList) else text.getD ""

/-- The part of a capture that comes when the text is known not to be blank. -/
def captureContent (content : String) (app : Option String) : Running Unit := do
  let (session, c) ← Session.start x g
  let settings : HandlerSettings :=
    { classifier := session.classifier, newId := x.newId, now := x.now
      window := session.settings.capture.window?.getD 0.0 }
  let (r, h) ← consult (Handler.handle x.outside settings { collection := c }
    { text := content, app := givenApp app } x.clock)
  match ← session.settle (r, h.collection) with
  | (none, _) => say "[dim]Already captured — nothing added.[/]"
  | (some s, c) =>
    let tags ← render (joined s.tags)
    say ("[green]✓[/] Captured [bold]" ++ s.kind.name ++ "[/] (" ++ tags ++ ")")
    print (← render (panelOf s))
    sayWarning c

theorem runCapture_eq (text app : Option String) (fromInput : Bool) :
    runCapture x g text app fromInput =
      if Text.isBlank (contentOf x text fromInput).toList then
        say Message.emptyCapture >>= fun _ => exit 1
      else captureContent x g (contentOf x text fromInput) app := by
  unfold runCapture
  extract_lets content rest
  have hcontent : content = contentOf x text fromInput := rfl
  rw [hcontent]
  split
  · rfl
  · rfl

end

/-! ## Commands that write -/

/-- The part of a clearing that comes when it is confirmed. -/
def clearCollection (s : Session) (c : Collection) : Running Unit := do
  let (_, cleared) ← s.settle c.deleteAll
  say s!"[green]✓[/] Deleted {c.snippets.length} snippets"
  sayWarning cleared

section

variable {view : World → γ} {x : Surroundings} {g : GlobalOptions}
  (hstart : Keeps view (Session.start x g))
  (hsettle : ∀ {α : Type} (s : Session) (o : Collection.Outcome α), Keeps view (s.settle o))
include hstart hsettle

theorem keeps_runCapture
    (hhandle : ∀ session c, (Session.start x g).Gives (session, c) → ∀ window e,
      Keeps view (consult (Handler.handle x.outside
        { classifier := session.classifier, newId := x.newId, now := x.now, window }
        { collection := c } e x.clock)))
    (text app : Option String) (fromInput : Bool) :
    Keeps view (runCapture x g text app fromInput) := by
  rw [runCapture_eq]
  split
  · exact (Keeps.say _).bind fun _ _ => .exit 1
  · refine hstart.bind fun (session, c) hgives => ?_
    refine (hhandle session c hgives _ _).bind fun (r, handler) _ => ?_
    refine (hsettle session (r, handler.collection)).bind fun (captured, c) _ => ?_
    cases captured with
    | none => exact .say _
    | some s =>
        refine (Keeps.orCrash ..).bind fun _ _ => (Keeps.say _).bind fun _ _ => ?_
        exact (Keeps.orCrash ..).bind fun _ _ => (Keeps.print _).bind fun _ _ => .sayWarning c

theorem keeps_runAddNote (id text : String) :
    Keeps view (runAddNote x g id text) := by
  refine hstart.bind fun (session, c) _ => (Keeps.findSnippet c id).bind fun s _ => ?_
  refine (hsettle session _).bind fun (_, c) _ => (Keeps.orCrash ..).bind fun _ _ => ?_
  exact (Keeps.say _).bind fun _ _ => .sayWarning c

theorem keeps_runRemoveNote (id : String) (number : Int) :
    Keeps view (runRemoveNote x g id number) := by
  refine hstart.bind fun (session, c) _ => (Keeps.findSnippet c id).bind fun s _ => ?_
  dsimp only
  split
  · exact (Keeps.say _).bind fun _ _ => .exit 1
  · refine (hsettle session _).bind fun (_, c) _ => ?_
    exact (Keeps.orCrash ..).bind fun _ _ => (Keeps.say _).bind fun _ _ => .sayWarning c

theorem keeps_runFavorite (id : String) : Keeps view (runFavorite x g id) := by
  refine hstart.bind fun (session, c) _ => (Keeps.findSnippet c id).bind fun s _ => ?_
  refine (hsettle session _).bind fun (isFavorite, c) _ => ?_
  dsimp only
  split
  · exact (Keeps.orCrash ..).bind fun _ _ => (Keeps.say _).bind fun _ _ => .sayWarning c
  · exact (Keeps.orCrash ..).bind fun _ _ => (Keeps.say _).bind fun _ _ => .sayWarning c

theorem keeps_runDelete (id : String) : Keeps view (runDelete x g id) := by
  refine hstart.bind fun (session, c) _ => (Keeps.findSnippet c id).bind fun s _ => ?_
  refine (hsettle session _).bind fun (_, c) _ => (Keeps.orCrash ..).bind fun _ _ => ?_
  exact (Keeps.orCrash ..).bind fun _ _ => (Keeps.say _).bind fun _ _ => .sayWarning c

theorem keeps_runClear (confirmed : Bool) : Keeps view (runClear x g confirmed) := by
  refine hstart.bind fun (session, c) _ => ?_
  have hdelete : Keeps view (clearCollection session c) :=
    (hsettle session _).bind fun (_, c) _ => (Keeps.say _).bind fun _ _ => .sayWarning c
  dsimp only
  split
  · exact (Keeps.say _).bind fun _ _ => .exit 0
  · split
    · refine (Keeps.write _).bind fun _ _ => ?_
      split
      · exact .exit 1
      · exact (Keeps.say _).bind fun _ _ => .exit 0
      · exact hdelete
    · exact hdelete

theorem keeps_runDemo : Keeps view (runDemo x g) := by
  refine hstart.bind fun (session, c) _ => ?_
  refine (hsettle session _).bind fun (added, c) _ => ?_
  dsimp only
  split
  · exact (Keeps.say _).bind fun _ _ => .exit 0
  · exact (Keeps.orCrash ..).bind fun _ _ => (Keeps.print _).bind fun _ _ => .sayWarning c

end

/-! ## Command lines -/

section

variable {x : Surroundings} {w : World} {args : List String} {g : GlobalOptions} {i : Invocation}

def codeOf : Stop → Nat
  | .exit code => code
  | .crash _ => 1

def exitCodeOf {α : Type} : Except Stop α → Nat
  | .ok _ => 0
  | .error e => codeOf e

theorem exitCode_runCommandLine (h : x.parse args = .ok (g, i)) :
    (runCommandLine x w args).exitCode = exitCodeOf (outcome (i.run x g) { world := w }).1 := by
  simp only [runCommandLine, h, outcome]
  rcases (i.run x g).run.run { world := w } with ⟨(code | crash) | _, p⟩ <;> rfl

theorem world_runCommandLine (h : x.parse args = .ok (g, i)) :
    (runCommandLine x w args).world = (outcome (i.run x g) { world := w }).2.world := by
  simp only [runCommandLine, h, outcome]
  rcases (i.run x g).run.run { world := w } with ⟨(code | crash) | _, p⟩ <;> rfl

/-- Where no command is understood nothing is run. -/
theorem world_runCommandLine_of_error {usage : Usage}
    (h : x.parse args = .error usage) : (runCommandLine x w args).world = w := by
  simp only [runCommandLine, h]
  cases usage <;> rfl

end

end Clipboard.Cli.Running
