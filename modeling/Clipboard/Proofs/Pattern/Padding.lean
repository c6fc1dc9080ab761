import Clipboard.Proofs.Pattern.Blanks

/-!
Searches in a text with blanks behind it. A pattern that ends with a character that is no blank matches where it
matches without them, and nowhere else. Together with the blanks in front this tells which patterns overlook the
blanks around a text.
-/

namespace Clipboard.Pattern

open Relation (ReflTransGen)
open Text (isSpace isBlank isWord)

/-! ## Behind the text -/

/-- To the condition blanks at the end of the text are as none. -/
def IgnoresBack (p : Option Char → List Char → Bool) : Prop :=
  ∀ before rest back, isBlank back → p before (rest ++ back) = p before rest

/-- The cursor at the same place of a longer text. -/
def padded (back : List Char) (k : Cursor) : Cursor := { k with rest := k.rest ++ back }

section

variable {a : Pattern} {α : Type} {back : List Char} {next : Cursor → Option α}

theorem length_le_of_passes {k l : Cursor} (h : a.Passes k l) : l.rest.length ≤ k.rest.length := by
  obtain ⟨taken, hmoves⟩ := exists_moves a h
  rw [hmoves.rest, List.length_append]
  omega

theorem along_append (p : Char → Bool) (before : Option Char) (held cs back : List Char) : ∃ beyond,
    Cursor.along p before held (cs ++ back) = (Cursor.along p before held cs).map (padded back) ++ beyond ∧
      ∀ l ∈ beyond, l.rest.length < back.length := by
  induction cs generalizing before with
  | nil =>
      cases back with
      | nil => exact ⟨[], by simp [Cursor.along, padded], List.forall_mem_nil _⟩
      | cons c back =>
          refine ⟨if p c then Cursor.along p (some c) held back else [], by simp [Cursor.along, padded], ?_⟩
          intro l hl
          split at hl
          · have hle : l.rest.length ≤ back.length := length_le_of_passes (a := many p) (k := ⟨some c, back, held⟩) hl
            exact Nat.lt_succ_of_le hle
          · cases hl
  | cons c cs ih =>
      by_cases hc : p c
      · obtain ⟨beyond, hbeyond, hless⟩ := ih (some c)
        exact ⟨beyond, by simp [Cursor.along, padded, hc, ← hbeyond], hless⟩
      · exact ⟨[], by simp [Cursor.along, padded, hc], List.forall_mem_nil _⟩

theorem repeated_eq_none (h : ∀ l, l.rest.length < back.length → next l = none) (fuel : List Char) {k : Cursor}
    (hk : k.rest.length < back.length) : repeated a.run next fuel k = none := by
  rw [← Option.not_isSome_iff_eq_none]
  intro hsome
  obtain ⟨x, hx⟩ := Option.isSome_iff_exists.mp hsome
  obtain ⟨l, hreach, hl⟩ := exists_of_repeated (explores_run a) hx
  have hle : l.rest.length ≤ k.rest.length := length_le_of_passes (a := star a) hreach
  rw [h l (Nat.lt_of_le_of_lt hle hk)] at hl
  cases hl

/-- Beyond the end of the shorter text no repetition matters. -/
theorem repeated_padded (ha : ∀ {next : Cursor → Option α} {k : Cursor},
      (∀ l, l.rest.length < back.length → next l = none) →
        a.run (padded back k) next = a.run k fun l => next (padded back l))
    (h : ∀ l, l.rest.length < back.length → next l = none) {fuel more : List Char} {k : Cursor}
    (hfuel : k.rest.length ≤ fuel.length) :
    repeated a.run next (fuel ++ more) (padded back k) = repeated a.run (fun l => next (padded back l)) fuel k := by
  have hnone (fuel : List Char) (k : Cursor) (l : Cursor) (hl : l.rest.length < back.length) :
      (if l.rest.length < (padded back k).rest.length then repeated a.run next fuel l else none) = none := by
    rw [repeated_eq_none h fuel hl, ite_self]
  induction fuel generalizing k with
  | nil =>
      cases more with
      | nil => rfl
      | cons _ more =>
          rw [List.nil_append, repeated, repeated, ha (hnone more k), a.run_eq_none]
          · rfl
          intro l hl
          have hle := length_le_of_passes hl
          simp only [padded, List.length_append, List.length_nil] at hfuel ⊢
          rw [if_neg (by omega)]
  | cons _ fuel ih =>
      rw [List.cons_append, repeated, repeated, ha (hnone (fuel ++ more) k)]
      refine congrArg (· <|> next (padded back k)) (a.run_congr fun l hl => ?_)
      have hless : (padded back l).rest.length < (padded back k).rest.length ↔ l.rest.length < k.rest.length := by
        simp [padded]
      simp only [hless]
      refine ite_congr rfl (fun hl => ih ?_) fun _ => rfl
      exact Nat.le_of_lt_succ (Nat.lt_of_lt_of_le hl hfuel)

theorem bind_passText?_padded (h : ∀ l, l.rest.length < back.length → next l = none) (w : List Char) (k : Cursor) :
    ((padded back k).passText? w).bind next = (k.passText? w).bind fun l => next (padded back l) := by
  induction w generalizing k with
  | nil => rfl
  | cons c w ih =>
      obtain ⟨before, rest, held⟩ := k
      cases rest with
      | cons d rest =>
          simp only [Cursor.passText?, padded, List.cons_append]
          split
          · exact ih ⟨some d, rest, held⟩
          · rfl
      | nil =>
          simp only [Cursor.passText?, Option.bind_none]
          rw [Option.bind_eq_none_iff]
          intro l hl
          cases back with
          | nil => simp [padded] at hl
          | cons d back =>
              refine h l ?_
              simp only [padded, List.nil_append] at hl
              obtain ⟨-, hl⟩ := (Option.ite_none_right_eq_some ..).mp hl
              have hmoves := (moves_of_passText? hl).rest
              simp only [Cursor.pass] at hmoves
              rw [hmoves, List.length_cons, List.length_append]
              omega

/-- A pattern runs in the longer text as in the shorter one, if nothing follows from the places beyond it. -/
theorem run_padded (hback : isBlank back) (ha : a.Heres IgnoresBack) {k : Cursor}
    (h : ∀ l, l.rest.length < back.length → next l = none) :
    a.run (padded back k) next = a.run k fun l => next (padded back l) := by
  induction a generalizing k next with
  | empty => rfl
  | one p =>
      obtain ⟨before, rest, held⟩ := k
      cases rest with
      | cons c rest => rfl
      | nil =>
          cases back with
          | nil => rfl
          | cons c back =>
              simp only [run, padded, List.nil_append, Cursor.pass]
              rw [h ⟨some c, back, held⟩ (Nat.lt_succ_self _), ite_self]
  | many p =>
      obtain ⟨beyond, halong, hbeyond⟩ := along_append p k.before k.held k.rest back
      have hnone : beyond.reverse.findSome? next = none :=
        List.findSome?_eq_none_iff.mpr fun l hl => h l (hbeyond l (List.mem_reverse.mp hl))
      simp only [run, padded, halong, List.reverse_append, List.findSome?_append, hnone, Option.none_or,
        ← List.map_reverse, List.findSome?_map]
      rfl
  | fewest p =>
      obtain ⟨beyond, halong, hbeyond⟩ := along_append p k.before k.held k.rest back
      have hnone : beyond.findSome? next = none :=
        List.findSome?_eq_none_iff.mpr fun l hl => h l (hbeyond l hl)
      simp only [run, padded, halong, List.findSome?_append, hnone, Option.or_none, List.findSome?_map]
      rfl
  | seq a b iha ihb =>
      rw [run, iha ha.1 fun m hm => b.run_eq_none fun l hl =>
        h l (Nat.lt_of_le_of_lt (length_le_of_passes hl) hm)]
      exact a.run_congr fun m _ => ihb ha.2 h
  | alt a b iha ihb => rw [run, run, iha ha.1 h, ihb ha.2 h]
  | star a iha => exact repeated_padded (iha ha) h (Nat.le_refl _)
  | hold a iha =>
      have hrun := @iha (fun l => next { l with held := (padded back k).textTo l }) ha k fun l hl => h _ hl
      refine hrun.trans (a.run_congr fun l _ => congrArg next ?_)
      have htext : (padded back k).textTo (padded back l) = k.textTo l := by
        simp only [Cursor.textTo, padded, List.length_append, Nat.add_sub_add_right]
        exact List.take_append_of_le_length (Nat.sub_le ..)
      rw [htext]
      rfl
  | again => exact bind_passText?_padded h k.held k
  | here p =>
      have hp : p k.before (k.rest ++ back) = p k.before k.rest := ha _ _ _ hback
      simp only [run, padded, hp]

end

/-! ## Patterns that end with no blank -/

section

variable {a : Pattern} {back : List Char} {k l : Cursor}

theorem length_back_le (hleaves : a.leaves) (hback : isBlank back) (h : a.Passes (padded back k) l) :
    back.length ≤ l.rest.length := by
  obtain ⟨taken, c, hmoves, hc⟩ := a.closes_spec.2 hleaves h
  by_contra hless
  have hrest : k.rest ++ back = (taken ++ [c]) ++ l.rest := hmoves.rest
  rcases List.append_eq_append_iff.mp hrest with ⟨more, hmore, hback'⟩ | ⟨more, -, hl⟩
  · rcases more.eq_nil_or_concat' with rfl | ⟨u, d, rfl⟩
    · rw [hback'] at hless
      exact hless (Nat.le_refl _)
    · rw [← List.append_assoc] at hmore
      obtain ⟨-, hcd⟩ := List.append_inj' hmore rfl
      obtain rfl := List.singleton_inj.mp hcd
      exact hc (List.all_eq_true.mp hback c (hback' ▸ by simp))
  · rw [hl, List.length_append] at hless
    omega

theorem match?_padded (hleaves : a.leaves) (ha : a.Heres IgnoresBack) (hback : isBlank back) (k : Cursor) :
    a.match? (padded back k) = (a.match? k).map (padded back) := by
  let next (l : Cursor) : Option Cursor := if back.length ≤ l.rest.length then some l else none
  have hmap (l : Cursor) (_ : a.Passes k l) : (some l).map (padded back) = some (padded back l) := rfl
  calc a.match? (padded back k)
    _ = a.run (padded back k) next :=
        a.run_congr fun l hl => (if_pos (length_back_le hleaves hback hl)).symm
    _ = a.run k fun l => next (padded back l) :=
        run_padded hback ha fun l hl => if_neg (Nat.not_le_of_lt hl)
    _ = a.run k fun l => some (padded back l) :=
        a.run_congr fun l _ => if_pos (by simp [padded])
    _ = (a.run k some).map (padded back) := (a.map_run hmap).symm

theorem match?_eq_none_of_isBlank (hleaves : a.leaves) (h : isBlank k.rest) : a.match? k = none := by
  refine a.run_eq_none fun l hl => ?_
  obtain ⟨taken, c, hmoves, hc⟩ := a.closes_spec.2 hleaves hl
  have hmem : c ∈ k.rest := by
    rw [hmoves.rest]
    simp
  exact absurd (List.all_eq_true.mp h c hmem) hc

theorem searchFrom_eq_none_of_isBlank (hleaves : a.leaves) {before : Option Char} (hback : isBlank back) :
    a.searchFrom before back = none := by
  induction back generalizing before with
  | nil => rw [searchFrom, match?_eq_none_of_isBlank hleaves rfl, Option.map_none]
  | cons c back ih =>
      rw [searchFrom, match?_eq_none_of_isBlank hleaves hback]
      exact ih (List.all_eq_true.mpr fun d hd => List.all_eq_true.mp hback d (List.mem_cons_of_mem c hd))

/-- A search finds in the longer text what it finds in the shorter one. -/
theorem searchFrom_padded (hleaves : a.leaves) (ha : a.Heres IgnoresBack) (hback : isBlank back)
    (before : Option Char) (cs : List Char) : a.searchFrom before (cs ++ back) =
      (a.searchFrom before cs).map fun kl => (padded back kl.1, padded back kl.2) := by
  induction cs generalizing before with
  | nil => rw [List.nil_append, searchFrom_eq_none_of_isBlank hleaves hback,
      searchFrom_eq_none_of_isBlank hleaves rfl, Option.map_none]
  | cons c cs ih =>
      have hmatch := match?_padded hleaves ha hback ⟨before, c :: cs, []⟩
      rw [padded, List.cons_append] at hmatch
      rw [List.cons_append, searchFrom, searchFrom, hmatch]
      cases a.match? ⟨before, c :: cs, []⟩ with
      | some l => rfl
      | none => exact ih (some c)

end

end Clipboard.Pattern
