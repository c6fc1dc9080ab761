import Clipboard.Proofs.Cli.Commands
import Clipboard.Proofs.Remote.Unasked

/-!
Commands that ask no model: because the user says so, because the settings do, or because the key for
the model is missing. The decision is taken when the settings are loaded; classifier, compiler and
resolver are then made without a model, so that whatever it would reply makes no difference.
-/

namespace Clipboard.Cli

open Remote (AsksNothing Consult Reply Request)
open Running

/-- Why no model may be asked. -/
def IsOffline (x : Surroundings) (g : GlobalOptions) : Prop :=
  g.offline ∨ ∃ s, settingsIn x = .ok s ∧
    (¬s.llm.enabled ∨ ∃ m, Remote.checkKey x.environment s.llm.model = .error m)

/-- The surroundings with a model that replies otherwise. -/
def Surroundings.answering (x : Surroundings) (reply : List Request → Request → Reply) :
    Surroundings := { x with outside := x.outside.answering reply }

/-- What models were asked. -/
def World.requests (w : World) : List Request := w.transcript.requests

theorem keeps_requests_consult {α : Type} {m : Consult α} (hm : AsksNothing m) :
    Keeps World.requests (consult m) := ⟨fun p => hm p.world.transcript⟩

section

variable {x : Surroundings} {g : GlobalOptions}

theorem keeps_requests_start : Keeps World.requests (Session.start x g) :=
  keeps_start (fun _ _ => rfl) fun _ _ => rfl

theorem keeps_requests_settle {α : Type} (s : Session) (o : Collection.Outcome α) :
    Keeps World.requests (s.settle o) := by
  have hkeep : Keeps World.requests (s.keep o.2) := ⟨fun _ => rfl⟩
  exact hkeep.bind fun _ _ => (Keeps.orCrash ..).bind fun _ _ => .pure _

variable (h : IsOffline x g)
include h

theorem offline_of_gives {s : Settings} {offline : Bool}
    (hgives : (loadSettings x g).Gives (s, offline)) : offline = true := by
  obtain ⟨hs, hoffline⟩ := gives_loadSettings hgives
  refine hoffline.mpr (h.imp_right ?_)
  rintro ⟨s', hs', hwhy⟩
  rw [hs] at hs'
  cases hs'
  exact hwhy

theorem unmodelled_of_gives {session : Session} {c : Collection}
    (hgives : (Session.start x g).Gives (session, c)) :
    session.classifier.labeller = none ∧ session.compiler.IsUnmodelled := by
  obtain ⟨p, hp⟩ := hgives
  obtain ⟨⟨settings, offline, hload, hsession⟩, -⟩ := of_start (Prod.ext hp rfl)
  obtain rfl := offline_of_gives h hload
  rw [hsession]
  exact ⟨rfl, rfl, rfl⟩

/-! ## No request -/

theorem keeps_requests_run (i : Invocation) : Keeps World.requests (i.run x g) := by
  cases i with
  | capture text app fromInput =>
      refine keeps_runCapture keeps_requests_start keeps_requests_settle ?_ text app fromInput
      intro session c hgives window e
      refine keeps_requests_consult (Handler.asksNothing_handle ?_ _ _ _ _)
      exact (unmodelled_of_gives h hgives).1
  | list view order => exact keeps_runList keeps_requests_start view order
  | search queries view order smart =>
      refine keeps_runSearch keeps_requests_start (fun session c hgives inputs => ?_) queries view ..
      exact keeps_requests_consult
        (Compiler.asksNothing_compileAll (unmodelled_of_gives h hgives).2 _ _ _ _)
  | «show» id => exact keeps_runShow keeps_requests_start id
  | classify text app =>
      refine keeps_runClassify keeps_loadSettings (fun s offline hgives text app => ?_) text app
      obtain rfl := offline_of_gives h hgives
      exact keeps_requests_consult (Classifier.asksNothing_classify rfl _ _ _)
  | resolveDate phrase smart =>
      refine keeps_runResolveDate keeps_loadSettings (fun s offline hgives _ _ => ?_) phrase smart
      obtain rfl := offline_of_gives h hgives
      exact keeps_requests_consult (Calendar.Resolver.asksNothing_resolve _ rfl _ _ _)
  | addNote id text => exact keeps_runAddNote keeps_requests_start keeps_requests_settle id text
  | removeNote id number =>
      exact keeps_runRemoveNote keeps_requests_start keeps_requests_settle id number
  | favorite id => exact keeps_runFavorite keeps_requests_start keeps_requests_settle id
  | delete id => exact keeps_runDelete keeps_requests_start keeps_requests_settle id
  | clear confirmed => exact keeps_runClear keeps_requests_start keeps_requests_settle confirmed
  | demo => exact keeps_runDemo keeps_requests_start keeps_requests_settle
  | version => exact .write _

/-! ## No difference -/

section

variable (reply : List Request → Request → Reply)

theorem captureContent_answering (content : String) (app : Option String) :
    captureContent (x.answering reply) g content app = captureContent x g content app := by
  refine bind_congr_of_gives fun (session, c) hgives => ?_
  dsimp only [Surroundings.answering]
  rw [Handler.handle_answering]
  exact (unmodelled_of_gives h hgives).1

theorem runCapture_answering (text app : Option String) (fromInput : Bool) :
    runCapture (x.answering reply) g text app fromInput = runCapture x g text app fromInput := by
  have hcontent : contentOf (x.answering reply) text fromInput = contentOf x text fromInput := rfl
  rw [runCapture_eq, runCapture_eq, hcontent, captureContent_answering h]

theorem runSearch_answering (queries : List String) (view : String) (order : Option String)
    (smart : Bool) :
    runSearch (x.answering reply) g queries view order smart =
      runSearch x g queries view order smart := by
  unfold runSearch
  refine bind_congr_of_gives fun _ _ => bind_congr_of_gives fun (session, c) hgives => ?_
  refine bind_congr_of_gives fun order _ => ?_
  dsimp only [Surroundings.answering]
  rw [Compiler.compileAll_answering (unmodelled_of_gives h hgives).2]

theorem runClassify_answering (text : String) (app : Option String) :
    runClassify (x.answering reply) g text app = runClassify x g text app := by
  refine bind_congr_of_gives fun (s, offline) hgives => ?_
  obtain rfl := offline_of_gives h hgives
  dsimp only [Surroundings.answering]
  rw [Classifier.classify_answering rfl]

theorem runResolveDate_answering (phrase : List String) (smart : Bool) :
    runResolveDate (x.answering reply) g phrase smart = runResolveDate x g phrase smart := by
  refine bind_congr_of_gives fun (s, offline) hgives => ?_
  obtain rfl := offline_of_gives h hgives
  dsimp only [Surroundings.answering]
  rw [Calendar.Resolver.resolve_answering _ rfl]

theorem run_answering (i : Invocation) : i.run (x.answering reply) g = i.run x g := by
  cases i with
  | capture text app fromInput => exact runCapture_answering h reply text app fromInput
  | search queries view order smart => exact runSearch_answering h reply queries view order smart
  | classify text app => exact runClassify_answering h reply text app
  | resolveDate phrase smart => exact runResolveDate_answering h reply phrase smart
  | _ => rfl

end

end

/-- Where no model may be asked none is, and what it would reply makes no difference to anything that
a command line leaves behind. -/
theorem runCommandLine_offline (x : Surroundings) (w : World) (args : List String)
    (h : ∀ g i, x.parse args = .ok (g, i) → IsOffline x g)
    (reply : List Request → Request → Reply) :
    runCommandLine (x.answering reply) w args = runCommandLine x w args ∧
      (runCommandLine x w args).world.requests = w.requests := by
  have hparse : (x.answering reply).parse args = x.parse args := rfl
  cases hargs : x.parse args with
  | error usage =>
      constructor
      · simp only [runCommandLine, hparse, hargs]
        cases usage <;> rfl
      · rw [world_runCommandLine_of_error hargs]
  | ok command =>
      obtain ⟨g, i⟩ := command
      have hoffline := h g i hargs
      constructor
      · simp only [runCommandLine, hparse, hargs, run_answering hoffline reply i]
      · rw [world_runCommandLine hargs]
        exact (keeps_requests_run hoffline i).kept { world := w }

/-- A search that would ask for a date and for a type, with a model at hand that the user does not
want to be asked. -/
theorem runCommandLine_offline_search :
    let x : Surroundings := { bare with environment := [("OPENAI_API_KEY", "key")] }
    let args := ["--offline", "search", "--smart", "/date the day we met", "/type recipes"]
    let r := runCommandLine x {} args
    (∀ g i, x.parse args = .ok (g, i) → IsOffline x g) ∧
      r.world.requests = [] ∧ ∀ reply, runCommandLine (x.answering reply) {} args = r := by
  intro x args r
  have hoffline : ∀ g i, x.parse args = .ok (g, i) → IsOffline x g := by
    rintro g i ⟨⟩
    exact .inl rfl
  have hrun := runCommandLine_offline x {} args hoffline
  exact ⟨hoffline, (hrun x.outside.reply).2, fun reply => (hrun reply).1⟩

end Clipboard.Cli
