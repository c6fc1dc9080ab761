import Clipboard.Remote.Basic

/-!
Computations that may fail, taken apart at their first step; with them those that may also consult the
outside, of which the result is told.
-/

namespace Clipboard.Fallible

variable {ε α β : Type} {x : Except ε α} {f : α → Except ε β}

theorem bind_eq_error_iff {e : ε} :
    x >>= f = .error e ↔ x = .error e ∨ ∃ a, x = .ok a ∧ f a = .error e := by
  cases x <;> simp [bind, Except.bind]

theorem bind_eq_ok_iff {b : β} : x >>= f = .ok b ↔ ∃ a, x = .ok a ∧ f a = .ok b := by
  cases x <;> simp [bind, Except.bind]

/-! ## Success -/

def Succeeds (x : Except ε α) : Prop := ∃ a, x = .ok a

@[simp]
theorem succeeds_ok (a : α) : Succeeds (ε := ε) (.ok a) := ⟨a, rfl⟩

@[simp]
theorem succeeds_pure (a : α) : Succeeds (pure a : Except ε α) := ⟨a, rfl⟩

@[simp]
theorem not_succeeds_error (e : ε) : ¬Succeeds (α := α) (.error e) := by
  rintro ⟨_, ⟨⟩⟩

@[simp]
theorem succeeds_ite_iff {c : Prop} [Decidable c] (a : α) (e : ε) :
    Succeeds (if c then .ok a else .error e) ↔ c := by
  split <;> simp [*]

theorem succeeds_bind_iff : Succeeds (x >>= f) ↔ ∃ a, x = .ok a ∧ Succeeds (f a) := by
  cases x <;> simp [bind, Except.bind]

@[simp]
theorem succeeds_ok_bind (a : α) : Succeeds (Except.ok a >>= f) ↔ Succeeds (f a) := Iff.rfl

theorem succeeds_bind_of_forall (h : ∀ a, Succeeds (f a)) : Succeeds (x >>= f) ↔ Succeeds x := by
  rw [succeeds_bind_iff]
  exact exists_congr fun a => and_iff_left (h a)

/-- A second question is asked only if the answer to the first is yes. -/
theorem succeeds_and_iff {x y : Except ε Bool} (h : Succeeds x → Succeeds y) :
    Succeeds (do if ← x then y else pure false) ↔ Succeeds x := by
  rcases x with e | ⟨_ | _⟩
  · simp [bind, Except.bind]
  · exact iff_of_true (succeeds_pure _) (succeeds_ok _)
  · exact iff_of_true (h (succeeds_ok _)) (succeeds_ok _)

theorem succeeds_map_iff {g : α → β} : Succeeds (x.map g) ↔ Succeeds x := by
  cases x <;> simp [Except.map]

theorem succeeds_mapError_iff {δ : Type} {g : ε → δ} : Succeeds (x.mapError g) ↔ Succeeds x := by
  cases x with
  | error e => exact iff_of_false (not_succeeds_error _) (not_succeeds_error e)
  | ok a => exact iff_of_true (succeeds_ok _) (succeeds_ok a)

theorem succeeds_both_iff {γ : Type} {y : Except ε β} {g : α → β → γ} :
    Succeeds (do return g (← x) (← y)) ↔ Succeeds x ∧ Succeeds y := by
  cases x with
  | error e => simp [bind, Except.bind]
  | ok a => simpa using succeeds_bind_of_forall fun _ => succeeds_pure _

theorem succeeds_mapM_iff {xs : List α} : Succeeds (xs.mapM f) ↔ ∀ a ∈ xs, Succeeds (f a) := by
  induction xs with
  | nil => simp
  | cons a xs ih =>
      rw [List.mapM_cons, List.forall_mem_cons, ← ih]
      exact succeeds_both_iff

theorem mem_of_mapM {xs : List α} {ys : List β} (h : xs.mapM f = .ok ys) (y : β) :
    y ∈ ys ↔ ∃ x ∈ xs, f x = .ok y := by
  induction xs generalizing ys with
  | nil =>
      cases h
      simp
  | cons x xs ih =>
      rw [List.mapM_cons] at h
      obtain ⟨z, hz, h⟩ := bind_eq_ok_iff.mp h
      obtain ⟨zs, hzs, h⟩ := bind_eq_ok_iff.mp h
      cases h
      simp [ih hzs, hz, eq_comm]

theorem exists_of_mapM_eq_error {xs : List α} {e : ε} (h : xs.mapM f = .error e) :
    ∃ a ∈ xs, f a = .error e := by
  induction xs with
  | nil => cases h
  | cons x xs ih =>
      rw [List.mapM_cons] at h
      rcases bind_eq_error_iff.mp h with h | ⟨_, -, h⟩
      · exact ⟨x, List.mem_cons_self, h⟩
      · rcases bind_eq_error_iff.mp h with h | ⟨_, -, h⟩
        · obtain ⟨a, ha, hfa⟩ := ih h
          exact ⟨a, List.mem_cons_of_mem x ha, hfa⟩
        · cases h

/-! ## Yes or no -/

/-- The question is answered, with yes exactly if the proposition holds. -/
def Decides (x : Except ε Bool) (p : Prop) : Prop := ∃ answer, x = .ok answer ∧ (answer = true ↔ p)

section

variable {x y : Except ε Bool} {p q c : Prop}

theorem decides_decide [Decidable p] : Decides (ε := ε) (.ok (decide p)) p :=
  ⟨_, rfl, decide_eq_true_iff⟩

theorem decides_no (h : ¬p) : Decides (pure false : Except ε Bool) p :=
  ⟨false, rfl, iff_of_false Bool.false_ne_true h⟩

theorem Decides.congr (h : Decides x p) (hpq : p ↔ q) : Decides x q :=
  h.imp fun _ => And.imp_right fun hp => hp.trans hpq

theorem Decides.eq_ok_true (h : Decides x p) (hp : p) : x = .ok true := by
  obtain ⟨answer, rfl, hiff⟩ := h
  rw [hiff.mpr hp]

theorem Decides.and (hx : Decides x p) (hy : Decides y q) :
    Decides (do if ← x then y else pure false) (p ∧ q) := by
  obtain ⟨answer, rfl, hp⟩ := hx
  cases answer with
  | true => exact hy.congr (and_iff_right (hp.mp rfl)).symm
  | false => exact decides_no fun h => Bool.false_ne_true (hp.mpr h.1)

theorem Decides.or (hx : Decides x p) (hy : Decides y q) :
    Decides (do if ← x then pure true else y) (p ∨ q) := by
  obtain ⟨answer, rfl, hp⟩ := hx
  cases answer with
  | true => exact ⟨true, rfl, iff_of_true rfl (.inl (hp.mp rfl))⟩
  | false => exact hy.congr (or_iff_right fun h => Bool.false_ne_true (hp.mpr h)).symm

/-- Which question is put may hang on another one. -/
theorem Decides.ite [Decidable c] (hx : c → Decides x p) (hy : ¬c → Decides y q) :
    Decides (do if ← .ok (decide c) then x else y) (if c then p else q) := by
  by_cases hc : c
  · rw [decide_eq_true hc, if_pos hc]
    exact hx hc
  · rw [decide_eq_false hc, if_neg hc]
    exact hy hc

theorem Decides.guarded [Decidable c] (hx : Decides x p) :
    Decides (if c then x else pure false) (c ∧ p) := by
  by_cases hc : c
  · rw [if_pos hc]
    exact hx.congr (and_iff_right hc).symm
  · rw [if_neg hc]
    exact decides_no fun h => hc h.1

end

/-! ## Attempts -/

section

open Remote (Attempt Consult Transcript)

variable {ε α β : Type}

theorem liftM_bind_run (c : Consult α) (k : α → Attempt ε β) (t : Transcript) :
    (liftM c >>= k : Attempt ε β).run t = (k (c t).1).run (c t).2 := rfl

theorem liftM_bind_fst (c : Consult α) (k : α → Attempt ε β) (t : Transcript) :
    ((liftM c >>= k : Attempt ε β).run t).1 = ((k (c t).1).run (c t).2).1 := rfl

theorem bind_run (x : Attempt ε α) (k : α → Attempt ε β) (t : Transcript) :
    (x >>= k).run t = match x.run t with
      | (.ok a, t') => (k a).run t'
      | (.error e, t') => (.error e, t') := by
  simp only [bind, ExceptT.bind, ExceptT.run, ExceptT.mk, StateT.bind, ExceptT.bindCont]
  rcases x t with ⟨_ | _, t'⟩ <;> rfl

theorem bind_fst (x : Attempt ε α) (k : α → Attempt ε β) (t : Transcript) :
    ((x >>= k).run t).1 = (x.run t).1 >>= fun a => ((k a).run (x.run t).2).1 := by
  rw [bind_run]
  rcases x.run t with ⟨_ | _, t'⟩ <;> rfl

end

end Clipboard.Fallible
