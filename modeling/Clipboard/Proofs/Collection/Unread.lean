import Clipboard.Proofs.Collection.Distinct

/-!
Sessions that begin with a load that fails. The collection then starts empty, with a warning, over a
stored text that nobody could read. Text and warning last until a save succeeds: the first one that
does replaces the text and takes the warning away.
-/

namespace Clipboard.Collection

open Store (canBeStored snippetsKey textOf)

/-! ## Attempts to save -/

namespace Attempt

theorem isTorn_of_isSaved {a : Attempt} (h : a.isSaved) : a.isTorn = false := by
  simp only [isSaved, Bool.and_eq_true] at h
  simp [isTorn, h.2]

end Attempt

section

variable {as : List Attempt} {a : Attempt}

/-- The last attempt that was answered is also the last that succeeded, if it did. -/
theorem lastSaved_of_lastAnswered (h : lastAnswered as = some a) (ha : a.isSaved) :
    lastSaved as = some a := by
  have hfilter : as.filter (·.isSaved) = (as.filter (!·.isTorn)).filter (·.isSaved) := by
    rw [List.filter_filter]
    refine List.filter_congr fun b _ => ?_
    cases hb : b.isSaved with
    | true => simp [Attempt.isTorn_of_isSaved hb]
    | false => rfl
  obtain ⟨bs, hbs⟩ := List.getLast?_eq_some_iff.mp h
  rw [lastSaved, hfilter, hbs, List.filter_append, List.filter_singleton, ha]
  exact List.getLast?_concat

theorem lookup_entriesAfter (entries : List (String × String)) (as : List Attempt) :
    (entriesAfter entries as).lookup snippetsKey =
      (lastSaved as).elim (entries.lookup snippetsKey) fun a => some (textOf a.snippets) := by
  unfold entriesAfter
  cases lastSaved as with
  | none => rfl
  | some a => exact Store.lookup_setEntry _ _ _

/-- A warning goes with the last attempt that was answered, and only then. -/
theorem warningAfter_some_eq_none_iff (message : String) (as : List Attempt) :
    warningAfter (some message) as = none ↔ ∃ a ∈ lastAnswered as, a.isSaved := by
  unfold warningAfter
  cases h : lastAnswered as with
  | none => simp
  | some a => simpa using Attempt.warning?_eq_none_iff (isTorn_of_lastAnswered h)

/-- After a warning either no attempt that was answered succeeded last, and the warning is there, or
the last one did, and its text is stored without a warning. -/
theorem after_cases (message : String) (entries : List (String × String)) (as : List Attempt) :
    (warningAfter (some message) as ≠ none ∧ ∀ a ∈ lastAnswered as, ¬a.isSaved) ∨
      ∃ a ∈ lastAnswered as, a.isSaved ∧ warningAfter (some message) as = none ∧
        (entriesAfter entries as).lookup snippetsKey = some (textOf a.snippets) := by
  by_cases hsaved : ∃ a ∈ lastAnswered as, a.isSaved
  · obtain ⟨a, ha, hok⟩ := hsaved
    refine .inr ⟨a, ha, hok, (warningAfter_some_eq_none_iff message as).mpr ⟨a, ha, hok⟩, ?_⟩
    rw [lookup_entriesAfter, lastSaved_of_lastAnswered ha hok]
    rfl
  · refine .inl ⟨fun h => hsaved ((warningAfter_some_eq_none_iff message as).mp h), ?_⟩
    exact fun a ha hok => hsaved ⟨a, ha, hok⟩

end

/-- What changes try to save has distinct contents if memory has. -/
theorem distinct_attempts (w : Surroundings) (pattern : Nat → Failures) {n : Nat} {m : Memory}
    (h : Distinct m.snippets) {μs : List Change} (hμs : ∀ μ ∈ μs, μ.IsTextual) :
    ∀ a ∈ attempts w pattern n m μs, Distinct a.snippets := by
  induction μs generalizing n m with
  | nil => simp [attempts]
  | cons μ μs ih =>
      obtain ⟨hμ, hμs⟩ := List.forall_mem_cons.mp hμs
      have hstep := μ.distinct_effect w h hμ
      refine List.forall_mem_append.mpr ⟨fun a ha => ?_, ih hstep hμs⟩
      cases he : μ.effect w m with
      | done r m' => simp [he, Effect.attempt?] at ha
      | save v m' =>
          rw [he] at hstep ha
          simp only [Effect.attempt?, Option.toList_some, List.mem_singleton] at ha
          subst ha
          exact hstep

/-! ## Failed loads -/

/-- The stored text of the collection. -/
def State.stored (s : State) : Option String := s.collection.store.entries.lookup snippetsKey

/-- The state after a load that failed. -/
def State.afterFailedLoad (s : State) (f : StorageFault) : State :=
  { s with
    collection.held := []
    collection.lastWarning := some ("Could not load saved snippets: " ++ f.message) }

theorem run_load_of_fault (w : Surroundings) {s : State} {f : StorageFault}
    (h : s.collection.store.load = .error (.storage f)) :
    Operation.load.run w s = (.ok (.snippets []), s.afterFailedLoad f) := by
  simp only [Operation.run, Collection.load, h]
  rfl

/-- A text that cannot be loaded is not the text of a collection that was saved. -/
theorem stored_ne_textOf {s : State} {f : StorageFault}
    (h : s.collection.store.load = .error (.storage f))
    (hread : s.collection.store.failures.read = none) {ss : List Snippet}
    (ht : ∀ x ∈ ss, x.IsTextual) (hs : canBeStored ss) : s.stored ≠ some (textOf ss) := by
  intro htext
  have hlookup : s.collection.store.entries.lookup snippetsKey = some (textOf ss) := htext
  simp only [Store.load, Store.get, hread, hlookup, Store.snippetsIn_textOf ht hs] at h
  cases h

/-- The stored text is as it was before, or something is warned of. -/
def IsKeptOrWarned (before after : State) : Prop :=
  after.stored = before.stored ∨ after.collection.lastWarning ≠ none

/-- After a load that failed, text and warning last until a save succeeds. From then on the text is
lost without a warning whenever the last save that was answered succeeded, unless it wrote the very
text that was there; a text that is itself to blame for the failed load is never that text. -/
theorem run_after_failed_load (w : Surroundings) (pattern : Nat → Failures) (s : State)
    (f : StorageFault) (hload : (s.under (pattern 0)).collection.store.load = .error (.storage f))
    (μs : List Change) :
    let as := attempts w pattern 1 ⟨[], s.collection.drawn, s.asked⟩ μs
    let s' := (run w pattern 0 s (.load :: μs.map .change)).2
    ((∀ a ∈ as, ¬a.isSaved) → s'.stored = s.stored ∧ s'.collection.lastWarning ≠ none) ∧
      (IsKeptOrWarned s s' ↔
        ∀ a ∈ lastAnswered as, a.isSaved → s.stored = some (textOf a.snippets)) ∧
      ((pattern 0).read = none → (∀ μ ∈ μs, μ.IsTextual) →
        (IsKeptOrWarned s s' ↔ ∀ a ∈ lastAnswered as, ¬a.isSaved)) := by
  intro as s'
  have hs' : s' = (run w pattern 1 ((s.under (pattern 0)).afterFailedLoad f)
      (μs.map .change)).2 := by
    simp only [s', run, run_load_of_fault w hload]
  obtain ⟨-, hentries, hwarning⟩ :=
    run_changes w pattern 1 ((s.under (pattern 0)).afterFailedLoad f) μs
  rw [← hs'] at hentries hwarning
  have hstored : s'.stored = (entriesAfter s.collection.store.entries as).lookup snippetsKey :=
    congrArg (List.lookup snippetsKey) hentries
  have hwarning : s'.collection.lastWarning =
      warningAfter (some ("Could not load saved snippets: " ++ f.message)) as := hwarning
  have hiff : IsKeptOrWarned s s' ↔
      ∀ a ∈ lastAnswered as, a.isSaved → s.stored = some (textOf a.snippets) := by
    rw [IsKeptOrWarned, hstored, hwarning]
    rcases after_cases ("Could not load saved snippets: " ++ f.message)
      s.collection.store.entries as with ⟨hwarned, hnone⟩ | ⟨a, ha, hok, hwarned, htext⟩
    · exact ⟨fun _ a ha hok => absurd hok (hnone a ha), fun _ => .inr hwarned⟩
    · have hlast : lastAnswered as = some a := ha
      rw [htext, hwarned, hlast]
      simp only [ne_eq, not_true_eq_false, or_false, Option.mem_def, Option.some.injEq, forall_eq',
        hok, true_imp_iff]
      exact eq_comm
  refine ⟨fun hnone => ?_, hiff, fun hread hμs => hiff.trans ?_⟩
  · have hsaved : lastSaved as = none := by
      simpa [lastSaved, List.getLast?_eq_none_iff, List.filter_eq_nil_iff] using hnone
    constructor
    · rw [hstored, lookup_entriesAfter, hsaved]
      rfl
    · rw [hwarning, ne_eq, warningAfter_some_eq_none_iff]
      rintro ⟨a, ha, hok⟩
      exact hnone a (List.mem_of_mem_filter (List.mem_of_getLast? ha)) hok
  · have hdistinct := distinct_attempts w pattern (n := 1) (m := ⟨[], s.collection.drawn, s.asked⟩)
      Distinct.nil hμs
    refine forall₂_congr fun a ha => ?_
    have hmem : a ∈ as := List.mem_of_mem_filter (List.mem_of_getLast? ha)
    constructor
    · intro htext hok
      exact stored_ne_textOf hload hread (hdistinct a hmem).textual
        ((Bool.and_eq_true _ _).mp hok).2 (htext hok)
    · intro hno hok
      exact absurd hok hno

/-- A store with a text that is no list of snippets. -/
def unreadable : State := ⟨{ store.entries := [(snippetsKey, Json.null.render)] }, {}⟩

theorem load_unreadable : unreadable.collection.store.load = .error (.storage (.notList .null)) := by
  have hparse := (Json.readsBack_null 980).parse_print
  have hget : unreadable.collection.store.get snippetsKey = .ok (some Json.null.render) := by
    simp [unreadable, Store.get]
  simp only [Store.load, hget, Store.snippetsIn, Json.render, String.toList_ofList, hparse]

/-- A greeting is added to an unreadable collection. If the store is full the text is still there,
and a warning; if not, the text is lost, and nothing tells. -/
theorem run_after_failed_load_greeting :
    let ops : List Operation := [.load, .change (.add [.own (Store.greeting ⟨0, by decide⟩)])]
    let full : Nat → Failures := fun _ => { write := some "database or disk is full" }
    IsKeptOrWarned unreadable (run silent full 0 unreadable ops).2 ∧
      ¬IsKeptOrWarned unreadable (run silent (fun _ => {}) 0 unreadable ops).2 := by
  intro ops full
  have hμs : ∀ μ ∈ [Change.add [.own (Store.greeting ⟨0, by decide⟩)]], μ.IsTextual := by
    simpa [Change.IsTextual, Held.own] using Store.isTextual_greeting ⟨0, by decide⟩
  obtain ⟨-, -, hfull⟩ := run_after_failed_load silent full unreadable _ load_unreadable
    [.add [.own (Store.greeting ⟨0, by decide⟩)]]
  obtain ⟨-, -, hworks⟩ := run_after_failed_load silent (fun _ => {}) unreadable _ load_unreadable
    [.add [.own (Store.greeting ⟨0, by decide⟩)]]
  constructor
  · refine (hfull rfl hμs).mpr ?_
    rintro a ⟨⟩
    decide
  · intro h
    exact (hworks rfl hμs).mp h ⟨[Store.greeting ⟨0, by decide⟩], none⟩ rfl rfl

end Clipboard.Collection
