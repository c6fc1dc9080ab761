import Clipboard.Cli.Run

/-!
What a command in progress keeps of the world, whatever it prints and however it ends. A view is the
part of the world that is looked at; what a command is put together from keeps a view part by part.
-/

namespace Clipboard.Cli

open Remote (Consult)

namespace Running

variable {α β ε γ : Type}

/-- What becomes of a command, and its progress then. -/
def outcome (m : Running α) (p : Progress) : Except Stop α × Progress := m.run.run p

@[simp]
theorem outcome_pure (a : α) (p : Progress) : outcome (pure a) p = (.ok a, p) := rfl

@[simp]
theorem outcome_crash (c : Crash) (p : Progress) :
    outcome (crash c : Running α) p = (.error (.crash c), p) := rfl

@[simp]
theorem outcome_orCrash_eq_ok_iff {f : ε → Crash} {r : Except ε α} {a : α} {p q : Progress} :
    outcome (orCrash f r) p = (.ok a, q) ↔ r = .ok a ∧ p = q := by
  cases r <;> simp [orCrash]

@[simp]
theorem outcome_modify (f : Progress → Progress) (p : Progress) :
    outcome (modify f) p = (.ok (), f p) := rfl

theorem outcome_bind (m : Running α) (f : α → Running β) (p : Progress) :
    outcome (m >>= f) p = match outcome m p with
      | (.ok a, q) => outcome (f a) q
      | (.error e, q) => (.error e, q) := by
  simp only [outcome, bind, ExceptT.bind, ExceptT.run, ExceptT.mk, StateT.bind, StateT.run]
  rcases m p with ⟨_ | _, q⟩ <;> rfl

theorem outcome_bind_eq_ok_iff {m : Running α} {f : α → Running β} {p r : Progress} {b : β} :
    outcome (m >>= f) p = (.ok b, r) ↔
      ∃ a q, outcome m p = (.ok a, q) ∧ outcome (f a) q = (.ok b, r) := by
  rw [outcome_bind]
  rcases outcome m p with ⟨e | a, q⟩
  · simp
  · constructor
    · exact fun h => ⟨a, q, rfl, h⟩
    · rintro ⟨_, _, ⟨⟩, h⟩
      exact h

/-- A result that a command can give. -/
def Gives (m : Running α) (a : α) : Prop := ∃ p, (outcome m p).1 = .ok a

/-- How a command goes on matters only after results that it can give. -/
theorem bind_congr_of_gives {m : Running α} {f f' : α → Running β} (h : ∀ a, m.Gives a → f a = f' a) :
    m >>= f = m >>= f' := by
  funext p
  have hf := outcome_bind m f p
  have hf' := outcome_bind m f' p
  rcases hm : outcome m p with ⟨e | a, q⟩
  · rw [hm] at hf hf'
    exact hf.trans hf'.symm
  · have ha : f a = f' a := h a ⟨p, by rw [hm]⟩
    rw [hm] at hf hf'
    simp only [ha] at hf
    exact hf.trans hf'.symm

theorem gives_consult {m : Consult α} {a : α} (h : (consult m).Gives a) : ∃ t, a = (m t).1 := by
  obtain ⟨p, hp⟩ := h
  exact ⟨p.world.transcript, (Except.ok.inj hp).symm⟩

/-! ## Views that are kept -/

/-- What a view shows is the same afterwards. -/
structure Keeps (view : World → γ) (m : Running α) : Prop where
  kept : ∀ p, view (outcome m p).2.world = view p.world

namespace Keeps

variable {view : World → γ}

theorem pure (a : α) : Keeps view (Pure.pure a : Running α) := ⟨fun _ => rfl⟩

theorem exit (code : Nat) : Keeps view (Running.exit code : Running α) := ⟨fun _ => rfl⟩

theorem crash (c : Crash) : Keeps view (Running.crash c : Running α) := ⟨fun _ => rfl⟩

theorem print (x : Printed) : Keeps view (Running.print x) := ⟨fun _ => rfl⟩

theorem say (s : String) : Keeps view (Running.say s) := ⟨fun _ => rfl⟩

theorem write (s : String) : Keeps view (Running.write s) := ⟨fun _ => rfl⟩

theorem orCrash (f : ε → Crash) (r : Except ε α) : Keeps view (Running.orCrash f r) := by
  cases r with
  | ok a => exact .pure a
  | error e => exact .crash (f e)

theorem bind {m : Running α} {f : α → Running β} (hm : Keeps view m)
    (hf : ∀ a, m.Gives a → Keeps view (f a)) : Keeps view (m >>= f) := by
  refine ⟨fun p => ?_⟩
  have hp := hm.kept p
  rw [outcome_bind]
  rcases ho : outcome m p with ⟨e | a, q⟩
  · rw [ho] at hp
    exact hp
  · rw [ho] at hp
    exact ((hf a ⟨p, by rw [ho]⟩).kept q).trans hp

/-- A change that goes by the progress so far. -/
theorem get_modify {k : Progress → Progress → Progress} {f : Progress → Running α}
    (hk : ∀ p, view (k p p).world = view p.world) (hf : ∀ s, Keeps view (f s)) :
    Keeps view (do let s ← get; modify (k s); f s) := ⟨fun p => ((hf p).kept (k p p)).trans (hk p)⟩

theorem sayWarning (c : Collection) : Keeps view (sayWarning c) := by
  unfold Cli.sayWarning
  split
  · split
    · exact .pure ()
    · exact .say _
  · exact .pure ()

theorem checkChoice (option value : String) (choices : List String) :
    Keeps view (checkChoice option value choices) := by
  unfold Cli.checkChoice
  split
  · exact .pure ()
  · exact (Keeps.say _).bind fun _ _ => .exit 1

theorem orderFor (s : Session) (wanted : Option String) : Keeps view (orderFor s wanted) :=
  (checkChoice ..).bind fun _ _ => .pure _

theorem findSnippet (c : Collection) (id : String) : Keeps view (findSnippet c id) := by
  unfold Cli.findSnippet
  split
  · exact .pure _
  · refine (Keeps.orCrash _ _).bind fun found _ => ?_
    split
    · exact .pure _
    · exact (Keeps.say _).bind fun _ _ => .exit 1
    · exact (Keeps.say _).bind fun _ _ => .exit 1

end Keeps

end Running

end Clipboard.Cli
