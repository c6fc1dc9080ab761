import Mathlib.Data.List.Basic
import Clipboard.Pattern.Forms

/-!
What is known of a match: it lies in the text, and a word that is matched in any mixture of cases is
spelt letter by letter.
-/

namespace Clipboard.Pattern

/-! ## Searches -/

section

variable {a : Pattern} {before : Option Char} {cs : List Char} {k l : Cursor}

theorem searchFrom_spec (h : a.searchFrom before cs = some (k, l)) :
    k.rest <:+ cs ∧ a.match? k = some l := by
  induction cs generalizing before with
  | nil =>
      obtain ⟨_, hmatch, hkl⟩ := Option.map_eq_some_iff.mp h
      cases hkl
      exact ⟨List.suffix_refl [], hmatch⟩
  | cons c cs ih =>
      rw [searchFrom] at h
      split at h
      · rename_i hmatch
        cases h
        exact ⟨List.suffix_refl _, hmatch⟩
      · obtain ⟨hsuffix, hmatch⟩ := ih h
        exact ⟨hsuffix.trans (List.suffix_cons c cs), hmatch⟩

/-- What matches at some place of the text is found. -/
theorem isSome_searchFrom {rest : List Char} (h : ∀ k : Cursor, k.rest = rest → (a.match? k).isSome)
    (front : List Char) : (a.searchFrom before (front ++ rest)).isSome := by
  have hhere : ∀ before, (a.searchFrom before rest).isSome := by
    intro before
    obtain ⟨l, hl⟩ := Option.isSome_iff_exists.mp (h ⟨before, rest, []⟩ rfl)
    cases rest <;> simp [searchFrom, hl]
  induction front generalizing before with
  | nil => exact hhere before
  | cons c front ih =>
      rw [List.cons_append, searchFrom]
      split
      · rfl
      · exact ih

theorem firstText?_subset {text : List Char} (h : a.firstText? cs = some text) : text ⊆ cs := by
  obtain ⟨⟨k, l⟩, hsearch, rfl⟩ := Option.map_eq_some_iff.mp h
  exact List.Subset.trans (List.take_subset _ _) (searchFrom_spec hsearch).1.subset

end

/-! ## Ways through a pattern -/

section

variable {α : Type} {k : Cursor} {next : Cursor → Option α} {x : α}

theorem run_append (a b : Pattern) :
    (a ++ b).run k next = a.run k fun l => b.run l next := rfl

theorem run_here {p : Option Char → List Char → Bool} (h : (here p).run k next = some x) :
    next k = some x := by
  rw [run] at h
  split at h
  · exact h
  · cases h

theorem textTo_of_rest {l : Cursor} {taken : List Char} (h : k.rest = taken ++ l.rest) :
    k.textTo l = taken := by
  simp [Cursor.textTo, h]

/-- The letters of a word, each in some case. -/
abbrev Spells (word : List Char) (taken : List Char) : Prop :=
  List.Forall₂ (fun l c => sameLetter l c) word taken

theorem run_anyCase {s : String} (h : (anyCase s).run k next = some x) :
    ∃ taken l, k.rest = taken ++ l.rest ∧ Spells s.toList taken ∧ next l = some x := by
  unfold anyCase at h
  generalize s.toList = word at h ⊢
  induction word generalizing k with
  | nil => exact ⟨[], k, rfl, .nil, h⟩
  | cons c word ih =>
      simp only [List.foldr_cons, run] at h
      split at h
      · cases h
      · rename_i d ds hrest
        split at h
        · rename_i hletter
          obtain ⟨taken, l, htaken, hspells, hnext⟩ := ih h
          have hds : ds = taken ++ l.rest := htaken
          exact ⟨d :: taken, l, by rw [hrest, hds, List.cons_append], .cons hletter hspells, hnext⟩
        · cases h

theorem run_exactly {s : String} {rest : List Char} (h : k.rest = s.toList ++ rest)
    (next : Cursor → Option α) : ∃ l, (exactly s).run k next = next l := by
  unfold exactly
  generalize s.toList = word at h
  induction word generalizing k with
  | nil => exact ⟨k, rfl⟩
  | cons c word ih =>
      obtain ⟨l, hl⟩ := @ih (k.pass c (word ++ rest)) rfl
      refine ⟨l, ?_⟩
      simp only [List.foldr_cons, run, h, List.cons_append, beq_self_eq_true, if_true]
      exact hl

theorem isSome_match_oneOf {a : Pattern} {as : List Pattern} (h : (a.match? k).isSome) :
    ((oneOf (a :: as)).match? k).isSome := by
  cases as with
  | nil => exact h
  | cons b as =>
      obtain ⟨l, hl⟩ := Option.isSome_iff_exists.mp h
      have hrun : a.run k some = some l := hl
      simp [match?, oneOf, run, hrun]

theorem run_oneOf {as : List Pattern} (h : (oneOf as).run k next = some x) :
    ∃ a ∈ as, a.run k next = some x := by
  induction as with
  | nil => cases h
  | cons a as ih =>
      cases as with
      | nil => exact ⟨a, List.mem_singleton_self a, h⟩
      | cons b as =>
          simp only [oneOf, run, Option.orElse_eq_orElse, Option.orElse_eq_or,
            Option.or_eq_some_iff] at h
          rcases h with h | ⟨-, h⟩
          · exact ⟨a, List.mem_cons_self, h⟩
          · obtain ⟨c, hc, hrun⟩ := ih h
            exact ⟨c, List.mem_cons_of_mem a hc, hrun⟩

theorem run_anyCaseOf {ss : List String} (h : (anyCaseOf ss).run k next = some x) :
    ∃ s ∈ ss, ∃ taken l, k.rest = taken ++ l.rest ∧ Spells s.toList taken ∧ next l = some x := by
  obtain ⟨a, ha, hrun⟩ := run_oneOf h
  obtain ⟨s, hs, rfl⟩ := List.mem_map.mp ha
  exact ⟨s, hs, run_anyCase hrun⟩

end

end Clipboard.Pattern
