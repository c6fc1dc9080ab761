import Mathlib.Order.Lattice
import Mathlib.Data.List.Induction
import Mathlib.Data.Int.Order.Basic
import Clipboard.Search.Debouncer

/-!
Runs of a debouncer. Each submitted value is delivered, superseded or still waiting, and what is
delivered is the latest value, once, and by a poll no earlier than the delay after its submission.
No order of the times is asked for.
-/

namespace Clipboard.Debouncer

variable {τ α : Type}

inductive Step (τ α : Type)
  | submit (v : α) (now : τ)
  | poll (now : τ)
  | flush

/-- The values that are submitted, each with its time. -/
def submitted (steps : List (Step τ α)) : List (α × τ) :=
  steps.filterMap fun
    | .submit v now => some (v, now)
    | _ => none

theorem submitted_cons (s : Step τ α) (steps : List (Step τ α)) :
    submitted (s :: steps) = submitted [s] ++ submitted steps :=
  List.filterMap_append (l := [s])

/-- The value that waits, if one does. -/
def held (d : Debouncer τ α) : List α := (d.pending.map (·.1)).toList

theorem length_held (d : Debouncer τ α) : d.held.length = d.pending.toList.length := by
  unfold held
  cases d.pending <;> rfl

section

variable [Add τ] [LinearOrder τ]

/-- What a step delivers, and the debouncer after it. -/
def Step.run (d : Debouncer τ α) : Step τ α → Option α × Debouncer τ α
  | submit v now => (none, d.submit v now)
  | poll now => d.poll now
  | flush => d.flush

/-- What steps deliver, in order, and the debouncer after them. -/
def run (d : Debouncer τ α) : List (Step τ α) → List α × Debouncer τ α
  | [] => ([], d)
  | s :: steps =>
    let (v, d) := s.run d
    let (vs, d) := run d steps
    (v.toList ++ vs, d)

theorem run_append (d : Debouncer τ α) (steps rest : List (Step τ α)) :
    run d (steps ++ rest) =
      ((run d steps).1 ++ (run (run d steps).2 rest).1, (run (run d steps).2 rest).2) := by
  induction steps generalizing d with
  | nil => rfl
  | cons s steps ih => simp only [List.cons_append, run, ih, List.append_assoc]

/-! ## Steps -/

theorem delay_step (d : Debouncer τ α) (s : Step τ α) : (s.run d).2.delay = d.delay := by
  cases s with
  | submit v now => rfl
  | poll now =>
      simp only [Step.run, poll]
      split
      · split <;> rfl
      · rfl
  | flush => rfl

omit [Add τ] in
/-- A poll that delivers nothing leaves no trace. Any other poll is a flush of a value that is due. -/
theorem poll_cases (d : Debouncer τ α) (now : τ) :
    d.poll now = (none, d) ∨
      ∃ v due, d.pending = some (v, due) ∧ due ≤ now ∧
        d.poll now = (some v, { d with pending := none }) := by
  unfold poll
  split
  · rename_i v due hpending
    split
    · exact .inl rfl
    · rename_i hdue
      exact .inr ⟨v, due, hpending, le_of_not_gt hdue, by simp [flush, hpending]⟩
  · exact .inl rfl

theorem step_accounts (d : Debouncer τ α) (s : Step τ α) :
    (submitted [s]).length + d.superseded + d.held.length =
      (s.run d).1.toList.length + (s.run d).2.superseded + (s.run d).2.held.length := by
  cases s with
  | submit v now =>
      cases hd : d.pending with
      | none => simp [submitted, Step.run, submit, held, hd, Nat.add_comm]
      | some p => simp [submitted, Step.run, submit, held, hd, Nat.add_comm]
  | poll now =>
      rcases d.poll_cases now with h | ⟨v, due, hd, -, h⟩
      · simp [submitted, Step.run, h]
      · simp [submitted, Step.run, h, held, hd, Nat.add_comm]
  | flush => cases hd : d.pending <;> simp [submitted, Step.run, flush, held, hd, Nat.add_comm]

theorem step_sublist (d : Debouncer τ α) (s : Step τ α) :
    ((s.run d).1.toList ++ (s.run d).2.held).Sublist (d.held ++ (submitted [s]).map (·.1)) := by
  cases s with
  | submit v now => exact List.sublist_append_right _ _
  | poll now =>
      rcases d.poll_cases now with h | ⟨v, due, hd, -, h⟩
      · simp [submitted, Step.run, h]
      · simp [submitted, Step.run, h, held, hd]
  | flush => cases hd : d.pending <;> simp [submitted, Step.run, flush, held, hd]

/-- What a step delivers was waiting, and a poll delivers it when it is due. -/
theorem pending_of_step {d : Debouncer τ α} {s : Step τ α} {v : α} (h : (s.run d).1 = some v) :
    ∃ due, d.pending = some (v, due) ∧ ∀ now, s = .poll now → due ≤ now := by
  cases s with
  | submit w now => cases h
  | poll now =>
      rcases d.poll_cases now with hvain | ⟨w, due, hd, hle, hpoll⟩
      · simp only [Step.run, hvain] at h
        cases h
      · simp only [Step.run, hpoll, Option.some.injEq] at h
        subst h
        refine ⟨due, hd, ?_⟩
        rintro _ ⟨⟩
        exact hle
  | flush =>
      obtain ⟨⟨w, due⟩, hd, rfl⟩ := Option.map_eq_some_iff.mp h
      refine ⟨due, hd, ?_⟩
      rintro _ ⟨⟩

/-! ## Runs -/

theorem run_balance (d : Debouncer τ α) (steps : List (Step τ α)) :
    (submitted steps).length + d.superseded + d.held.length =
      (run d steps).1.length + (run d steps).2.superseded + (run d steps).2.held.length := by
  induction steps generalizing d with
  | nil => simp [run, submitted]
  | cons s steps ih =>
      have hstep := step_accounts d s
      have hrest := ih (s.run d).2
      rw [submitted_cons, List.length_append]
      simp only [run, List.length_append]
      omega

theorem run_sublist (d : Debouncer τ α) (steps : List (Step τ α)) :
    ((run d steps).1 ++ (run d steps).2.held).Sublist
      (d.held ++ (submitted steps).map (·.1)) := by
  induction steps generalizing d with
  | nil => simp [run, submitted]
  | cons s steps ih =>
      have hrest := (ih (s.run d).2).append_left (s.run d).1.toList
      have hstep := (step_sublist d s).append_right ((submitted steps).map (·.1))
      rw [← List.append_assoc, ← List.append_assoc] at hrest
      rw [submitted_cons, List.map_append, ← List.append_assoc]
      exact hrest.trans hstep

theorem delay_run (d : Debouncer τ α) (steps : List (Step τ α)) :
    (run d steps).2.delay = d.delay := by
  induction steps generalizing d with
  | nil => rfl
  | cons s steps ih => exact (ih (s.run d).2).trans (delay_step d s)

/-- A value was submitted at a time, and since then nothing was submitted or delivered. -/
def IsLatest (d : Debouncer τ α) (steps : List (Step τ α)) (v : α) (now : τ) : Prop :=
  ∃ earlier quiet, steps = earlier ++ .submit v now :: quiet ∧ submitted quiet = [] ∧
    (run ((run d earlier).2.submit v now) quiet).1 = []

namespace IsLatest

variable {d : Debouncer τ α} {steps : List (Step τ α)} {v : α} {now : τ}

theorem getLast (h : IsLatest d steps v now) : (submitted steps).getLast? = some (v, now) := by
  obtain ⟨earlier, quiet, rfl, hquiet, -⟩ := h
  have hsplit : submitted (earlier ++ .submit v now :: quiet) =
      submitted earlier ++ (v, now) :: submitted quiet := by simp [submitted]
  rw [hsplit, hquiet, List.getLast?_append]
  rfl

/-- A poll in vain changes nothing. -/
theorem snoc_poll (h : IsLatest d steps v now) {later : τ}
    (hvain : (run d steps).2.poll later = (none, (run d steps).2)) :
    IsLatest d (steps ++ [.poll later]) v now := by
  obtain ⟨earlier, quiet, rfl, hquiet, hnone⟩ := h
  refine ⟨earlier, quiet ++ [.poll later], by simp, by simpa [submitted] using hquiet, ?_⟩
  have hstate : (run d (earlier ++ .submit v now :: quiet)).2 =
      (run ((run d earlier).2.submit v now) quiet).2 := by
    rw [run_append]
    rfl
  rw [hstate] at hvain
  rw [run_append, hnone]
  simp [run, Step.run, hvain]

end IsLatest

/-- The value that waits is the latest, and due as soon as the delay is over. -/
theorem isLatest_of_pending {delay : τ} {steps : List (Step τ α)} {v : α} {due : τ}
    (h : (run { delay } steps).2.pending = some (v, due)) :
    ∃ now, due = now + delay ∧ IsLatest { delay } steps v now := by
  induction steps using List.reverseRecOn generalizing v due with
  | nil => cases h
  | append_singleton steps s ih =>
      have hlast : (run { delay } (steps ++ [s])).2 = (s.run (run { delay } steps).2).2 := by
        rw [run_append]
        rfl
      rw [hlast] at h
      cases s with
      | submit w now =>
          have hdelay : (run { delay } steps).2.delay = delay := delay_run _ steps
          simp only [Step.run, submit, hdelay, Option.some.injEq, Prod.mk.injEq] at h
          obtain ⟨rfl, rfl⟩ := h
          exact ⟨now, rfl, steps, [], rfl, rfl, rfl⟩
      | poll later =>
          rcases (run { delay } steps).2.poll_cases later with hvain | ⟨w, _, -, -, hpoll⟩
          · simp only [Step.run, hvain] at h
            obtain ⟨now, hdue, hlatest⟩ := ih h
            exact ⟨now, hdue, hlatest.snoc_poll hvain⟩
          · simp only [Step.run, hpoll] at h
            cases h
      | flush => cases h

/-- Of the values submitted in a run, each is delivered, superseded or waiting at the end. Those
delivered come in the order of submission, none twice. What a next step delivers is the latest
submission, since which nothing was delivered; a poll delivers it no earlier than the delay after
that. -/
theorem run_accounts (delay : τ) (steps : List (Step τ α)) :
    let r := run { delay } steps
    (submitted steps).length = r.1.length + r.2.superseded + r.2.pending.toList.length ∧
      r.1.Sublist ((submitted steps).map (·.1)) ∧
      ∀ (s : Step τ α) v, (s.run r.2).1 = some v →
        ∃ t, IsLatest { delay } steps v t ∧ (submitted steps).getLast? = some (v, t) ∧
          ∀ now, s = .poll now → t + delay ≤ now := by
  intro r
  have hbalance := run_balance { delay } steps
  have hsublist := run_sublist { delay } steps
  refine ⟨?_, (List.sublist_append_left _ _).trans hsublist, fun s v hv => ?_⟩
  · rw [← length_held]
    exact hbalance
  · obtain ⟨due, hpending, hdue⟩ := pending_of_step hv
    obtain ⟨t, rfl, hlatest⟩ := isLatest_of_pending hpending
    exact ⟨t, hlatest, hlatest.getLast, hdue⟩

/-- The second of two values is delivered when it is due, not the first. -/
theorem run_accounts_pair :
    let steps : List (Step ℤ String) := [.submit "a" 0, .submit "ab" 100, .poll 350]
    let r := run { delay := (300 : ℤ) } steps
    r = ([], { delay := 300, pending := some ("ab", 400), superseded := 1 }) ∧
      ∃ t, IsLatest { delay := (300 : ℤ) } steps "ab" t ∧ t + 300 ≤ 400 := by
  intro steps r
  obtain ⟨-, -, hdelivers⟩ := run_accounts (300 : ℤ) steps
  obtain ⟨t, hlatest, -, hdue⟩ := hdelivers (.poll 400) "ab" rfl
  exact ⟨rfl, t, hlatest, hdue 400 rfl⟩

end

end Clipboard.Debouncer
