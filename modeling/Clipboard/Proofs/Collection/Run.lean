import Clipboard.Proofs.Collection.Effect
import Clipboard.Proofs.Store.RoundTrip

/-!
Runs of operations on a collection, each with a store that works or fails as it likes, and the saves
that they attempt.
-/

namespace Clipboard.Collection

open Store (canBeStored setEntry snippetsKey textOf)

/-! ## Saves -/

/-- A save that was asked for: the snippets, and what the medium has against it. -/
structure Attempt where
  snippets : List Snippet
  refusal : Option String

namespace Attempt

/-- The save of snippets in a store that fails so. -/
def under (f : Failures) (ss : List Snippet) : Attempt := ⟨ss, f.refusal ss⟩

/-- Whether the snippets are in the store now. -/
def isSaved (a : Attempt) : Bool := a.refusal.isNone && canBeStored a.snippets

/-- Whether the medium would have done it, but for a text that cannot be stored. -/
def isTorn (a : Attempt) : Bool := a.refusal.isNone && !canBeStored a.snippets

/-- What is left to warn of. -/
def warning? (a : Attempt) : Option String :=
  a.refusal.map fun message => warningFor (.write snippetsKey message)

theorem warning?_eq_none_iff {a : Attempt} (h : a.isTorn = false) :
    a.warning? = none ↔ a.isSaved := by
  cases hr : a.refusal with
  | some message => simp [warning?, isSaved, hr]
  | none => simpa [warning?, isSaved, isTorn, hr] using h

end Attempt

/-- The save that an effect asks for. -/
def Effect.attempt? (f : Failures) : Effect → Option Attempt
  | .done _ _ => none
  | .save _ m => some (.under f m.snippets)

/-- The last attempt that succeeded. -/
def lastSaved (as : List Attempt) : Option Attempt := (as.filter (·.isSaved)).getLast?

/-- The last attempt that succeeded or that the medium refused. -/
def lastAnswered (as : List Attempt) : Option Attempt := (as.filter (!·.isTorn)).getLast?

theorem isTorn_of_lastAnswered {as : List Attempt} {a : Attempt} (h : lastAnswered as = some a) :
    a.isTorn = false := by
  have hmem := List.mem_of_getLast? h
  simpa using (List.mem_filter.mp hmem).2

def entriesAfter (entries : List (String × String)) (as : List Attempt) : List (String × String) :=
  (lastSaved as).elim entries fun a => setEntry snippetsKey (textOf a.snippets) entries

def warningAfter (warning : Option String) (as : List Attempt) : Option String :=
  (lastAnswered as).elim warning Attempt.warning?

theorem entriesAfter_append (entries : List (String × String)) (as bs : List Attempt) :
    entriesAfter entries (as ++ bs) = entriesAfter (entriesAfter entries as) bs := by
  simp only [entriesAfter, lastSaved, List.filter_append, List.getLast?_append]
  cases (bs.filter (·.isSaved)).getLast? with
  | none => simp
  | some b =>
      cases (as.filter (·.isSaved)).getLast? with
      | none => simp
      | some a => simp [Store.setEntry_setEntry]

theorem warningAfter_append (warning : Option String) (as bs : List Attempt) :
    warningAfter warning (as ++ bs) = warningAfter (warningAfter warning as) bs := by
  simp only [warningAfter, lastAnswered, List.filter_append, List.getLast?_append]
  cases (bs.filter (!·.isTorn)).getLast? with
  | none => simp
  | some b => simp

/-- A save gives the value unless a text cannot be stored, and touches the entries and the warning
alone. -/
theorem persist_eq {α : Type} (c : Collection) (v : α) :
    let a : Attempt := .under c.store.failures c.snippets
    c.persist v = (if a.isTorn then .error .torn else .ok v,
      { c with
        store.entries := entriesAfter c.store.entries [a]
        lastWarning := warningAfter c.lastWarning [a] }) := by
  intro a
  cases hw : c.store.failures.refusal c.snippets with
  | some message =>
      have ha : a = ⟨c.snippets, some message⟩ := by rw [← hw]; rfl
      simp [persist, Store.save_of_refused hw, ha, Attempt.isTorn, Attempt.isSaved, entriesAfter,
        lastSaved, warningAfter, lastAnswered, Attempt.warning?]
  | none =>
      have ha : a = ⟨c.snippets, none⟩ := by rw [← hw]; rfl
      by_cases hs : canBeStored c.snippets = true
      · simp [persist, Store.save_of_not_refused hw, ha, hs, Attempt.isTorn, Attempt.isSaved,
          entriesAfter, lastSaved, warningAfter, lastAnswered, Attempt.warning?, Store.holding]
      · simp [persist, Store.save_of_not_refused hw, ha, hs, Attempt.isTorn, Attempt.isSaved,
          entriesAfter, lastSaved, warningAfter, lastAnswered]

/-! ## Runs -/

inductive Operation
  | load
  | change (μ : Change)

def Operation.run (w : Surroundings) (s : State) : Operation → Except Fault Value × State
  | load => (s.collection.load.as .snippets).withAsked s.asked
  | change μ => μ.run w s

/-- The state with a store that fails so from now on. -/
def State.under (f : Failures) (s : State) : State :=
  { s with collection.store.failures := f }

/-- The results and the state after operations, the store failing as the pattern says at each. -/
def run (w : Surroundings) (pattern : Nat → Failures) :
    Nat → State → List Operation → List (Except Fault Value) × State
  | _, s, [] => ([], s)
  | n, s, op :: ops =>
    let (r, s) := op.run w (s.under (pattern n))
    let (rs, s) := run w pattern (n + 1) s ops
    (r :: rs, s)

/-! ## Runs of changes -/

/-- The memory after changes, which no store has a part in. -/
def memoryAfter (w : Surroundings) (m : Memory) (μs : List Change) : Memory :=
  μs.foldl (fun m μ => (μ.effect w m).memory) m

/-- The saves that changes ask for, and what the store says to each. -/
def attempts (w : Surroundings) (pattern : Nat → Failures) :
    Nat → Memory → List Change → List Attempt
  | _, _, [] => []
  | n, m, μ :: μs =>
    let e := μ.effect w m
    (e.attempt? (pattern n)).toList ++ attempts w pattern (n + 1) e.memory μs

/-- The state with other memory after attempts to save. -/
def State.after (s : State) (m : Memory) (as : List Attempt) : State where
  collection := {
    held := m.held
    store := { s.collection.store with entries := entriesAfter s.collection.store.entries as }
    lastWarning := warningAfter s.collection.lastWarning as
    drawn := m.drawn }
  asked := m.asked

/-- What an effect gives: the value of a save is withheld if a text cannot be stored. -/
def Effect.result (f : Failures) (e : Effect) : Except Fault Value :=
  match e with
  | .done r _ => r
  | .save v m => if (Attempt.under f m.snippets).isTorn then .error .torn else .ok v

theorem Effect.settle_eq (e : Effect) (s : State) :
    e.settle s = (e.result s.collection.store.failures,
      s.after e.memory (e.attempt? s.collection.store.failures).toList) := by
  cases e with
  | done r m => rfl
  | save v m =>
      simp only [settle, persist_eq]
      rfl

theorem Change.run_under (w : Surroundings) (f : Failures) (s : State) (μ : Change) :
    let e := μ.effect w s.memory
    μ.run w (s.under f) = (e.result f, (s.under f).after e.memory (e.attempt? f).toList) := by
  rw [Change.run_eq, Effect.settle_eq]
  rfl

/-- What changes leave: memory as told without a store, the entries of the last successful save and
the warning of the last one. -/
theorem run_changes (w : Surroundings) (pattern : Nat → Failures) (n : Nat) (s : State)
    (μs : List Change) :
    let as := attempts w pattern n s.memory μs
    let s' := (run w pattern n s (μs.map .change)).2
    s'.memory = memoryAfter w s.memory μs ∧
      s'.collection.store.entries = entriesAfter s.collection.store.entries as ∧
      s'.collection.lastWarning = warningAfter s.collection.lastWarning as := by
  induction μs generalizing n s with
  | nil => exact ⟨rfl, rfl, rfl⟩
  | cons μ μs ih =>
      have hstep := Change.run_under w (pattern n) s μ
      have hrest := ih (n + 1) (μ.run w (s.under (pattern n))).2
      rw [hstep] at hrest
      simp only [List.map_cons, run, Operation.run, attempts, entriesAfter_append,
        warningAfter_append]
      rw [hstep]
      exact hrest

/-! ## Two runs -/

section

variable (w : Surroundings) (p q : Nat → Failures)

theorem Effect.result_agree (f g : Failures) (e : Effect) :
    e.result f = e.result g ∨ e.result f = .error .torn ∨ e.result g = .error .torn := by
  cases e with
  | done r m => exact .inl rfl
  | save v m =>
      simp only [result]
      split
      · exact .inr (.inl rfl)
      · split
        · exact .inr (.inr rfl)
        · exact .inl rfl

theorem results_agree (n : Nat) {s s' : State} (h : s.memory = s'.memory) (μs : List Change)
    (i : Nat) :
    let rs := (run w p n s (μs.map .change)).1
    let rs' := (run w q n s' (μs.map .change)).1
    rs[i]? = rs'[i]? ∨ rs[i]? = some (.error .torn) ∨ rs'[i]? = some (.error .torn) := by
  induction μs generalizing n s s' i with
  | nil => exact .inl rfl
  | cons μ μs ih =>
      have hstep := Change.run_under w (p n) s μ
      have hstep' := Change.run_under w (q n) s' μ
      simp only [List.map_cons, run, Operation.run]
      rw [hstep, hstep', ← h]
      cases i with
      | zero =>
          have hagree := (μ.effect w s.memory).result_agree (p n) (q n)
          simpa only [List.getElem?_cons_zero, Option.some.injEq] using hagree
      | succ i =>
          refine ih (n + 1) ?_ i
          rfl

/-- After each of the changes the store holds the snippets that were in memory at the last successful
save, and nothing is warned of if and only if the last save succeeded or none was asked for. A save
of a text that cannot be stored is neither a success nor a refusal: it has a result of its own and
leaves store and warning alone. -/
def IsTracked (s : State) (μs : List Change) : Prop :=
  ∀ k : Nat,
    let as := attempts w p 0 s.memory (μs.take k)
    let c := (run w p 0 s ((μs.take k).map .change)).2.collection
    c.store.entries = entriesAfter s.collection.store.entries as ∧
      (c.lastWarning = none ↔ ∀ a ∈ lastAnswered as, a.isSaved)

theorem warningAfter_none_iff (as : List Attempt) :
    warningAfter none as = none ↔ ∀ a ∈ lastAnswered as, a.isSaved := by
  unfold warningAfter
  cases h : lastAnswered as with
  | none => simp
  | some a => simpa using Attempt.warning?_eq_none_iff (isTorn_of_lastAnswered h)

theorem isTracked (s : State) (hs : s.collection.lastWarning = none) (μs : List Change) :
    IsTracked w p s μs := by
  intro k
  obtain ⟨-, hentries, hwarning⟩ := run_changes w p 0 s (μs.take k)
  refine ⟨hentries, ?_⟩
  rw [hwarning, hs]
  exact warningAfter_none_iff _

/-- Changes that start without a warning, as after a load that went well, leave the same memory
whatever the store does. They give the same results unless a text that cannot be stored keeps one
back, and store and warning follow the saves. -/
theorem run_changes_agree (s : State) (hs : s.collection.lastWarning = none) (μs : List Change) :
    let r := run w p 0 s (μs.map .change)
    let r' := run w q 0 s (μs.map .change)
    r.2.memory = r'.2.memory ∧
      (∀ i : Nat, r.1[i]? = r'.1[i]? ∨ r.1[i]? = some (.error .torn) ∨
        r'.1[i]? = some (.error .torn)) ∧
      ((∀ x ∈ r.1 ++ r'.1, x ≠ .error .torn) → r.1 = r'.1) ∧
      IsTracked w p s μs ∧ IsTracked w q s μs := by
  intro r r'
  have hmemory : r.2.memory = r'.2.memory :=
    (run_changes w p 0 s μs).1.trans (run_changes w q 0 s μs).1.symm
  have hresults := results_agree w p q 0 (rfl : s.memory = s.memory) μs
  refine ⟨hmemory, hresults, fun hwhole => ?_, isTracked w p s hs μs, isTracked w q s hs μs⟩
  refine List.ext_getElem? fun i => ?_
  rcases hresults i with h | h | h
  · exact h
  · exact absurd rfl (hwhole _ (List.mem_append_left _ (List.mem_of_getElem? h)))
  · exact absurd rfl (hwhole _ (List.mem_append_right _ (List.mem_of_getElem? h)))

end

/-- Nothing answers, and identifiers are numbers. -/
def silent : Surroundings where
  outside := ⟨fun _ _ => .nothing, fun _ _ => .ok none, fun _ _ => .ok none⟩
  classifier := {}
  newId n := toString n

/-- A store that is full at the first save. -/
def fullAtFirst : Nat → Failures
  | 0 => { write := some "database or disk is full" }
  | _ => {}

/-- A collection that was loaded without a warning, to which a snippet is added that then becomes a
favourite: whether the first save fails cannot be told from the memory. -/
theorem run_changes_agree_full :
    let s : State := ⟨({} : Collection).load.2, {}⟩
    let μs : List Change := [.add [.own (Store.greeting ⟨0, by decide⟩)], .toggleFavorite (.text "1")]
    (run silent (fun _ => {}) 0 s (μs.map .change)).2.memory =
        (run silent fullAtFirst 0 s (μs.map .change)).2.memory ∧
      IsTracked silent fullAtFirst s μs := by
  intro s μs
  obtain ⟨hmemory, -, -, -, htracked⟩ := run_changes_agree silent (fun _ => {}) fullAtFirst s rfl μs
  exact ⟨hmemory, htracked⟩

end Clipboard.Collection
