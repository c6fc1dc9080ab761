import Clipboard.Program.CommandLine
import Clipboard.Proofs.Cli.Running

/-!
The sessions of commands: which settings and which collection a command starts with, and what a start
keeps of the world.
-/

namespace Clipboard.Cli.Running

variable {γ : Type}

/-- Nothing answers, nothing is set, and identifiers are numbers. -/
def bare : Surroundings where
  parse := Program.CommandLine.read
  outside := ⟨fun _ _ => .nothing, fun _ _ => .ok none, fun _ _ => .ok none⟩
  now := Sample.code.moment
  newId n := toString n
  home := "/home/ada"

section

variable {view : World → γ} {x : Surroundings} {g : GlobalOptions}

theorem keeps_loadSettings : Keeps view (loadSettings x g) := by
  unfold loadSettings
  dsimp only
  cases settingsIn x with
  | error f =>
      dsimp only
      split
      · exact (Keeps.say _).bind fun _ _ => .exit 1
      · exact .crash _
  | ok s =>
      simp only [pure_bind]
      split
      · exact .pure _
      · split
        · exact .pure _
        · exact (Keeps.say _).bind fun _ _ => .pure _

theorem keeps_reachStore (hfolders : ∀ w folders, view { w with folders } = view w)
    (path : FilePath) : Keeps view (reachStore x path) := by
  unfold reachStore
  split
  · exact .pure none
  · exact Keeps.get_modify (fun p => hfolders p.world _) fun _ =>
      (Keeps.orCrash ..).bind fun _ _ => .pure _

/-- The collection of a store before it is loaded. -/
def opened (x : Surroundings) (place : Option String) (w : World) : Collection where
  store := { (place.bind fun path => w.stores.lookup path).getD {} with failures := x.failures }
  drawn := w.drawn

def sessionOf (detector : Detector) (settings : Settings) (offline : Bool) (place : Option String) :
    Session :=
  let classifier := classifierFor detector settings offline
  { settings, classifier, place
    compiler :=
      { dates := resolverFor settings offline, labeller := classifier.labeller
        minTermLength := settings.search.minTermLength, smart := settings.dates.smart } }

/-- The last part of a start: the collection is loaded from the store that was reached. -/
def openCollection (x : Surroundings) (s : Session) : Running (Session × Collection) := do
  let p ← get
  s.keep (opened x s.place p.world)
  let (loaded, c) := (opened x s.place p.world).load
  let _ ← orCrash Crash.collection loaded
  if s.settings.capture.window?.isNone then crash .hugeWindow
  return (s, c)

theorem start_eq (x : Surroundings) (g : GlobalOptions) : Session.start x g = (do
    let (settings, offline) ← loadSettings x g
    let path ← orCrash Crash.path (storePath x.home g settings)
    let place ← reachStore x path
    openCollection x (sessionOf x.detector settings offline place)) := rfl

theorem keeps_openCollection {s : Session}
    (hkeep : ∀ p, view (outcome (s.keep (opened x s.place p.world)) p).2.world = view p.world) :
    Keeps view (openCollection x s) := by
  refine Keeps.get_modify hkeep fun p => ?_
  refine (Keeps.orCrash _ (opened x s.place p.world).load.1).bind fun _ _ => ?_
  dsimp only
  split
  · exact .crash _
  · exact .pure _

theorem keeps_start (hfolders : ∀ w folders, view { w with folders } = view w)
    (hkeep : ∀ (s : Session) p, view (outcome (s.keep (opened x s.place p.world)) p).2.world =
      view p.world) : Keeps view (Session.start x g) := by
  rw [start_eq]
  refine keeps_loadSettings.bind fun _ _ => (Keeps.orCrash ..).bind fun path _ => ?_
  exact (keeps_reachStore hfolders path).bind fun _ _ => keeps_openCollection (hkeep _)

theorem gives_loadSettings {s : Settings} {offline : Bool}
    (h : (loadSettings x g).Gives (s, offline)) : settingsIn x = .ok s ∧
      (offline ↔ g.offline ∨ ¬s.llm.enabled ∨
        ∃ m, Remote.checkKey x.environment s.llm.model = .error m) := by
  obtain ⟨p, hp⟩ := h
  unfold loadSettings at hp
  dsimp only at hp
  cases hs : settingsIn x with
  | error f =>
      rw [hs] at hp
      dsimp only at hp
      split at hp
      · cases hp
      · cases hp
  | ok s' =>
      simp only [hs, pure_bind] at hp
      split at hp
      · rename_i hoff
        simp only [outcome_pure, Except.ok.injEq, Prod.mk.injEq] at hp
        obtain ⟨rfl, rfl⟩ := hp
        refine ⟨rfl, iff_of_true rfl ?_⟩
        simpa [or_assoc] using Or.inl hoff
      · rename_i hon
        simp only [Bool.or_eq_true, Bool.not_eq_true', not_or, Bool.not_eq_true,
          Bool.not_eq_false] at hon
        split at hp
        · rename_i hkey
          simp only [outcome_pure, Except.ok.injEq, Prod.mk.injEq] at hp
          obtain ⟨rfl, rfl⟩ := hp
          simp [hon, hkey]
        · rename_i m hkey
          have hgives : (s', true) = (s, offline) := Except.ok.inj hp
          obtain ⟨rfl, rfl⟩ := hgives
          simp [hkey]

theorem of_openCollection {s session : Session} {c : Collection} {p q : Progress}
    (h : outcome (openCollection x s) p = (.ok (session, c), q)) :
    session = s ∧ ∃ ss, (opened x s.place p.world).load = (.ok ss, c) := by
  obtain ⟨_, _, hget, h⟩ := outcome_bind_eq_ok_iff.mp h
  cases hget
  obtain ⟨_, _, -, h⟩ := outcome_bind_eq_ok_iff.mp h
  rcases hload : (opened x s.place p.world).load with ⟨loaded, c'⟩
  rw [hload] at h
  obtain ⟨ss, _, hss, h⟩ := outcome_bind_eq_ok_iff.mp h
  obtain ⟨rfl, -⟩ := outcome_orCrash_eq_ok_iff.mp hss
  dsimp only at h
  split at h
  · cases h
  · cases h
    exact ⟨rfl, ss, rfl⟩

/-- The session that a start comes to, and the collection that it finds. -/
theorem of_start {p q : Progress} {session : Session} {c : Collection}
    (h : outcome (Session.start x g) p = (.ok (session, c), q)) :
    (∃ settings offline, (loadSettings x g).Gives (settings, offline) ∧
      session = sessionOf x.detector settings offline session.place) ∧
    ∃ ss, (opened x session.place p.world).load = (.ok ss, c) := by
  rw [start_eq] at h
  obtain ⟨⟨settings, offline⟩, p₁, hload, h⟩ := outcome_bind_eq_ok_iff.mp h
  obtain ⟨path, p₂, hpath, h⟩ := outcome_bind_eq_ok_iff.mp h
  obtain ⟨place, p₃, hplace, h⟩ := outcome_bind_eq_ok_iff.mp h
  obtain ⟨rfl, hopened⟩ := of_openCollection h
  refine ⟨⟨settings, offline, ⟨p, by rw [hload]⟩, rfl⟩, ?_⟩
  -- What comes before the collection leaves the stores and the count of identifiers as they were.
  have hsame : ∀ place, opened x place p₃.world = opened x place p.world := by
    intro place
    have hkeptLoad : Keeps (opened x place) (loadSettings x g) := keeps_loadSettings
    have hkeptReach : Keeps (opened x place) (reachStore x path) :=
      keeps_reachStore (fun _ _ => rfl) path
    have h₁ := hkeptLoad.kept p
    have h₃ := hkeptReach.kept p₂
    rw [hload] at h₁
    rw [hplace] at h₃
    obtain ⟨-, rfl⟩ := outcome_orCrash_eq_ok_iff.mp hpath
    exact h₃.trans h₁
  rwa [hsame] at hopened

end

end Clipboard.Cli.Running
