import Mathlib.Logic.Relation
import Clipboard.Proofs.Pattern.Match

/-!
The ways through a pattern, in no order. Running a pattern finds one from which the rest succeeds if there is
one: backtracking misses none.
-/

namespace Clipboard.Pattern

open Relation (ReflTransGen)

/-- A step that comes nearer to the end of the text. -/
def Advances (passes : Cursor → Cursor → Prop) (k l : Cursor) : Prop :=
  passes k l ∧ l.rest.length < k.rest.length

/-- The pattern can pass from one cursor to the other. -/
def Passes : Pattern → Cursor → Cursor → Prop
  | empty, k, l => l = k
  | one p, k, l => ∃ c cs, k.rest = c :: cs ∧ p c ∧ l = k.pass c cs
  | many p, k, l => l ∈ Cursor.along p k.before k.held k.rest
  | fewest p, k, l => l ∈ Cursor.along p k.before k.held k.rest
  | seq a b, k, l => ∃ m, a.Passes k m ∧ b.Passes m l
  | alt a b, k, l => a.Passes k l ∨ b.Passes k l
  | star a, k, l => ReflTransGen (Advances a.Passes) k l
  | hold a, k, l => ∃ m, a.Passes k m ∧ l = { m with held := k.textTo m }
  | again, k, l => k.passText? k.held = some l
  | here p, k, l => p k.before k.rest ∧ l = k

/-! ## Running -/

section

variable {α : Type}

/-- `run` tells what can be reached by `passes`. -/
def Explores (run : Cursor → (Cursor → Option α) → Option α) (passes : Cursor → Cursor → Prop) : Prop :=
  (∀ k next x, run k next = some x → ∃ l, passes k l ∧ next l = some x) ∧
    ∀ k l next, passes k l → (next l).isSome → (run k next).isSome

theorem explores_findSome? {cursors : Cursor → List Cursor} {passes : Cursor → Cursor → Prop}
    (h : ∀ k l, l ∈ cursors k ↔ passes k l) :
    Explores (α := α) (fun k next => (cursors k).findSome? next) passes := by
  constructor
  · intro k next x hrun
    obtain ⟨l, hl, hnext⟩ := List.exists_of_findSome?_eq_some hrun
    exact ⟨l, (h k l).mp hl, hnext⟩
  · intro k l next hpass hnext
    rw [List.findSome?_isSome_iff]
    exact ⟨l, (h k l).mpr hpass, hnext⟩

section

variable {step : Cursor → (Cursor → Option α) → Option α} {passes : Cursor → Cursor → Prop}
  {next : Cursor → Option α}

theorem exists_of_repeated (h : Explores step passes) {fuel : List Char} {k : Cursor} {x : α}
    (hrun : repeated step next fuel k = some x) :
    ∃ l, ReflTransGen (Advances passes) k l ∧ next l = some x := by
  induction fuel generalizing k with
  | nil => exact ⟨k, .refl, hrun⟩
  | cons _ fuel ih =>
      rw [repeated, Option.orElse_eq_orElse, Option.orElse_eq_or, Option.or_eq_some_iff] at hrun
      rcases hrun with hstep | ⟨-, hnext⟩
      · obtain ⟨m, hm, hrest⟩ := h.1 _ _ _ hstep
        obtain ⟨hless, hrest⟩ := (Option.ite_none_right_eq_some ..).mp hrest
        obtain ⟨l, hl, hnext⟩ := ih hrest
        exact ⟨l, .head ⟨hm, hless⟩ hl, hnext⟩
      · exact ⟨k, .refl, hnext⟩

/-- Each step passes a character, so that the fuel lasts to the end of the text. -/
theorem isSome_repeated (h : Explores step passes) {fuel : List Char} {k l : Cursor}
    (hfuel : k.rest.length ≤ fuel.length) (hreach : ReflTransGen (Advances passes) k l)
    (hnext : (next l).isSome) : (repeated step next fuel k).isSome := by
  induction fuel generalizing k with
  | nil =>
      rcases hreach.cases_head with rfl | ⟨m, hadvance, -⟩
      · exact hnext
      · exact absurd (Nat.lt_of_lt_of_le hadvance.2 hfuel) (Nat.not_lt_zero _)
  | cons _ fuel ih =>
      rw [repeated, Option.orElse_eq_orElse, Option.orElse_eq_or, Option.isSome_or, Bool.or_eq_true]
      rcases hreach.cases_head with rfl | ⟨m, ⟨hm, hless⟩, hreach⟩
      · exact .inr hnext
      · refine .inl (h.2 k m _ hm ?_)
        rw [if_pos hless]
        exact ih (Nat.le_of_lt_succ (Nat.lt_of_lt_of_le hless hfuel)) hreach

end

theorem explores_run (a : Pattern) : Explores (α := α) a.run a.Passes := by
  induction a with
  | empty =>
      refine ⟨fun k next x hrun => ⟨k, rfl, hrun⟩, fun k l next hpass hnext => ?_⟩
      rw [run]
      exact hpass ▸ hnext
  | one p =>
      constructor
      · intro k next x hrun
        rw [run] at hrun
        split at hrun
        · cases hrun
        · rename_i c cs hrest
          obtain ⟨hc, hnext⟩ := (Option.ite_none_right_eq_some ..).mp hrun
          exact ⟨_, ⟨c, cs, hrest, hc, rfl⟩, hnext⟩
      · rintro k l next ⟨c, cs, hrest, hc, rfl⟩ hnext
        simpa only [run, hrest, hc, if_true] using hnext
  | many p => exact explores_findSome? fun k l => List.mem_reverse
  | fewest p => exact explores_findSome? fun k l => Iff.rfl
  | seq a b iha ihb =>
      constructor
      · intro k next x hrun
        obtain ⟨m, hm, hrun⟩ := iha.1 _ _ _ hrun
        obtain ⟨l, hl, hnext⟩ := ihb.1 _ _ _ hrun
        exact ⟨l, ⟨m, hm, hl⟩, hnext⟩
      · rintro k l next ⟨m, hm, hl⟩ hnext
        exact iha.2 _ _ _ hm (ihb.2 _ _ _ hl hnext)
  | alt a b iha ihb =>
      constructor
      · intro k next x hrun
        rw [run, Option.orElse_eq_orElse, Option.orElse_eq_or, Option.or_eq_some_iff] at hrun
        rcases hrun with hrun | ⟨-, hrun⟩
        · exact (iha.1 _ _ _ hrun).imp fun l => And.imp_left .inl
        · exact (ihb.1 _ _ _ hrun).imp fun l => And.imp_left .inr
      · intro k l next hpass hnext
        rw [run, Option.orElse_eq_orElse, Option.orElse_eq_or, Option.isSome_or, Bool.or_eq_true]
        exact hpass.imp (iha.2 _ _ _ · hnext) (ihb.2 _ _ _ · hnext)
  | star a iha =>
      exact ⟨fun k next x hrun => exists_of_repeated iha hrun,
        fun k l next hpass hnext => isSome_repeated iha (Nat.le_refl _) hpass hnext⟩
  | hold a iha =>
      constructor
      · intro k next x hrun
        obtain ⟨m, hm, hnext⟩ := iha.1 _ _ _ hrun
        exact ⟨_, ⟨m, hm, rfl⟩, hnext⟩
      · rintro k l next ⟨m, hm, rfl⟩ hnext
        exact iha.2 _ _ _ hm hnext
  | again =>
      constructor
      · intro k next x hrun
        exact Option.bind_eq_some_iff.mp hrun
      · intro k l next hpass hnext
        rw [run, hpass]
        exact hnext
  | here p =>
      constructor
      · intro k next x hrun
        obtain ⟨hp, hnext⟩ := (Option.ite_none_right_eq_some ..).mp hrun
        exact ⟨k, ⟨hp, rfl⟩, hnext⟩
      · rintro k l next ⟨hp, rfl⟩ hnext
        rw [run, if_pos hp]
        exact hnext

end

section

variable {a : Pattern} {k l : Cursor}

theorem passes_of_match? (h : a.match? k = some l) : a.Passes k l := by
  obtain ⟨m, hpass, hm⟩ := (explores_run a).1 _ _ _ h
  cases hm
  exact hpass

theorem isSome_match?_iff : (a.match? k).isSome ↔ ∃ l, a.Passes k l := by
  constructor
  · intro h
    obtain ⟨l, hl⟩ := Option.isSome_iff_exists.mp h
    exact ⟨l, passes_of_match? hl⟩
  · rintro ⟨l, hl⟩
    exact (explores_run a).2 _ _ _ hl rfl

theorem starts_iff {cs : List Char} : a.starts cs ↔ ∃ l, a.Passes (.start cs) l := isSome_match?_iff

theorem searchFrom_of_match? {before : Option Char} {cs : List Char}
    (h : a.match? ⟨before, cs, []⟩ = some l) : a.searchFrom before cs = some (⟨before, cs, []⟩, l) := by
  cases cs <;> simp [searchFrom, h]

end

/-! ## Forms -/

theorem getLast?_cons_or (c : Char) (u : List Char) (before : Option Char) :
    (c :: u).getLast?.or before = u.getLast?.or (some c) := by
  rw [List.getLast?_cons]
  cases u.getLast? <;> rfl

section

variable {k l : Cursor} {rest taken : List Char} {p : Char → Bool}

theorem passes_oneOf {as : List Pattern} : (oneOf as).Passes k l ↔ ∃ a ∈ as, a.Passes k l := by
  induction as with
  | nil => simp [oneOf, Passes]
  | cons a as ih =>
      cases as with
      | nil => simp [oneOf]
      | cons b as =>
          rw [List.exists_mem_cons_iff, ← ih]
          exact Iff.rfl

theorem exists_of_mem_along {before : Option Char} {held cs : List Char}
    (h : l ∈ Cursor.along p before held cs) : ∃ taken,
      cs = taken ++ l.rest ∧ l.before = taken.getLast?.or before ∧ ∀ c ∈ taken, p c := by
  induction cs generalizing before with
  | nil =>
      obtain rfl := List.mem_singleton.mp h
      exact ⟨[], rfl, rfl, List.forall_mem_nil _⟩
  | cons c cs ih =>
      rcases List.mem_cons.mp h with rfl | h
      · exact ⟨[], rfl, rfl, List.forall_mem_nil _⟩
      · split at h
        · rename_i hc
          obtain ⟨taken, hcs, hbefore, htaken⟩ := ih h
          refine ⟨c :: taken, by rw [hcs]; rfl, ?_, List.forall_mem_cons.mpr ⟨hc, htaken⟩⟩
          rw [hbefore, getLast?_cons_or]
        · cases h

theorem exists_of_passes_many (h : (many p).Passes k l) :
    ∃ taken, k.rest = taken ++ l.rest ∧ ∀ c ∈ taken, p c := by
  obtain ⟨taken, hrest, -, htaken⟩ := exists_of_mem_along h
  exact ⟨taken, hrest, htaken⟩

theorem exists_passes_many (hrest : k.rest = taken ++ rest) (htaken : ∀ c ∈ taken, p c) :
    ∃ l, (many p).Passes k l ∧ l.rest = rest := by
  simp only [Passes]
  generalize k.before = before
  generalize k.rest = cs at hrest
  subst hrest
  induction taken generalizing before with
  | nil => cases rest <;> simp [Cursor.along]
  | cons c taken ih =>
      obtain ⟨hc, htaken⟩ := List.forall_mem_cons.mp htaken
      obtain ⟨l, hl, hlrest⟩ := ih htaken (some c)
      refine ⟨l, ?_, hlrest⟩
      rw [List.cons_append, Cursor.along, if_pos hc]
      exact List.mem_cons_of_mem _ hl

end

/-! ## First characters -/

/-- What the pattern passes begins with a character of the class. -/
def Begins (p : Char → Prop) (a : Pattern) : Prop :=
  ∀ ⦃k l⦄, a.Passes k l → ∃ c cs, k.rest = c :: cs ∧ p c

section

variable {p q : Char → Prop} {a b : Pattern}

theorem Begins.imp (h : Begins p a) (hpq : ∀ c, p c → q c) : Begins q a := by
  intro k l hl
  obtain ⟨c, cs, hrest, hc⟩ := h hl
  exact ⟨c, cs, hrest, hpq c hc⟩

theorem begins_append (h : Begins p a) : Begins p (a ++ b) := by
  rintro k l ⟨m, hm, -⟩
  exact h hm

theorem begins_word {same : Char → Char → Bool} (c : Char) (word : List Char) :
    Begins (same c ·) ((c :: word).foldr (fun c a => seq (one (same c)) a) empty) := by
  rintro k l ⟨m, ⟨d, ds, hrest, hd, -⟩, -⟩
  exact ⟨d, ds, hrest, hd⟩

theorem exists_of_starts (ha : Begins p a) {cs : List Char} (h : a.starts cs) :
    ∃ c ds, cs = c :: ds ∧ p c := by
  obtain ⟨l, hl⟩ := starts_iff.mp h
  exact ha hl

/-- Two patterns that begin with different characters do not both match. -/
theorem starts_eq_false (ha : Begins p a) (hb : Begins q b) (hpq : ∀ c, p c → ¬q c) {cs : List Char}
    (h : a.starts cs) : b.starts cs = false := by
  obtain ⟨c, ds, rfl, hc⟩ := exists_of_starts ha h
  rw [Bool.eq_false_iff]
  intro hstarts
  obtain ⟨d, es, heq, hd⟩ := exists_of_starts hb hstarts
  obtain ⟨rfl, -⟩ := List.cons.inj heq
  exact hpq c hc hd

/-- Where the pattern cannot begin it does not match. -/
theorem match?_eq_none (ha : Begins p a) {c : Char} (hc : ¬p c) (before : Option Char) (cs held : List Char) :
    a.match? ⟨before, c :: cs, held⟩ = none := by
  rw [← Option.not_isSome_iff_eq_none]
  intro hsome
  obtain ⟨l, hl⟩ := isSome_match?_iff.mp hsome
  obtain ⟨d, ds, hrest, hd⟩ := ha hl
  obtain ⟨rfl, -⟩ := List.cons.inj hrest
  exact hc hd

end

/-- A search goes on behind a text in which no match begins. -/
theorem searchFrom_append {a : Pattern} {before : Option Char} {front rest : List Char}
    (h : ∀ u c w, front = u ++ c :: w → a.match? ⟨u.getLast?.or before, c :: (w ++ rest), []⟩ = none) :
    a.searchFrom before (front ++ rest) = a.searchFrom (front.getLast?.or before) rest := by
  induction front generalizing before with
  | nil => rfl
  | cons c front ih =>
      have hnone : a.match? ⟨before, c :: (front ++ rest), []⟩ = none := h [] c front rfl
      rw [List.cons_append, searchFrom, hnone, getLast?_cons_or]
      refine ih fun u d w hfront => ?_
      rw [← getLast?_cons_or]
      exact h (c :: u) d w (congrArg (c :: ·) hfront)

end Clipboard.Pattern
