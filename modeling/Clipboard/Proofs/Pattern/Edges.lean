import Clipboard.Proofs.Pattern.Passes
import Clipboard.Proofs.Text.Lower

/-!
The edges of what a pattern passes. Every way through a pattern goes forward, and running the pattern asks what
follows only at the ends of its ways. Of many patterns it can be told by their form that each way begins or
ends with a character that is no blank.
-/

namespace Clipboard.Pattern

open Relation (ReflTransGen)
open Text (isSpace)

/-! ## Going forward -/

/-- The second cursor stands behind the given text, seen from the first. -/
structure Moves (taken : List Char) (k l : Cursor) : Prop where
  rest : k.rest = taken ++ l.rest
  before : l.before = taken.getLast?.or k.before

theorem Moves.refl (k : Cursor) : Moves [] k k := ⟨rfl, rfl⟩

theorem Moves.trans {u w : List Char} {k l m : Cursor} (h : Moves u k l) (h' : Moves w l m) :
    Moves (u ++ w) k m where
  rest := by rw [h.rest, h'.rest, List.append_assoc]
  before := by rw [h'.before, h.before, List.getLast?_append, Option.or_assoc]

theorem moves_of_passText? {w : List Char} {k l : Cursor} (h : k.passText? w = some l) : Moves w k l := by
  induction w generalizing k with
  | nil =>
      cases h
      exact .refl _
  | cons c w ih =>
      rw [Cursor.passText?] at h
      split at h
      · cases h
      · rename_i d ds hrest
        obtain ⟨hc, h⟩ := (Option.ite_none_right_eq_some ..).mp h
        obtain rfl := eq_of_beq hc
        have hstep : Moves [c] k (k.pass c ds) := ⟨hrest, rfl⟩
        exact hstep.trans (ih h)

theorem exists_moves (a : Pattern) {k l : Cursor} (h : a.Passes k l) : ∃ taken, Moves taken k l := by
  induction a generalizing k l with
  | empty =>
      obtain rfl := h
      exact ⟨[], .refl l⟩
  | one p =>
      obtain ⟨c, cs, hrest, -, rfl⟩ := h
      exact ⟨[c], hrest, rfl⟩
  | many p =>
      obtain ⟨taken, hrest, hbefore, -⟩ := exists_of_mem_along h
      exact ⟨taken, hrest, hbefore⟩
  | fewest p =>
      obtain ⟨taken, hrest, hbefore, -⟩ := exists_of_mem_along h
      exact ⟨taken, hrest, hbefore⟩
  | seq a b iha ihb =>
      obtain ⟨m, hm, hl⟩ := h
      obtain ⟨u, hu⟩ := iha hm
      obtain ⟨w, hw⟩ := ihb hl
      exact ⟨u ++ w, hu.trans hw⟩
  | alt a b iha ihb => exact h.elim iha ihb
  | star a iha =>
      induction h with
      | refl => exact ⟨[], .refl k⟩
      | tail _ hstep ih =>
          obtain ⟨u, hu⟩ := ih
          obtain ⟨w, hw⟩ := iha hstep.1
          exact ⟨u ++ w, hu.trans hw⟩
  | hold a iha =>
      obtain ⟨m, hm, rfl⟩ := h
      obtain ⟨u, hu⟩ := iha hm
      exact ⟨u, hu.rest, hu.before⟩
  | again => exact ⟨k.held, moves_of_passText? h⟩
  | here p =>
      obtain ⟨-, rfl⟩ := h
      exact ⟨[], .refl l⟩

/-! ## What follows -/

section

variable {α β : Type} {next : Cursor → Option α} {next' : Cursor → Option β} {g : α → β} {k : Cursor}

theorem map_orElse (x y : Option α) : (x <|> y).map g = (x.map g <|> y.map g) := by
  cases x <;> rfl

theorem map_repeated {a : Pattern}
    (ha : ∀ {next : Cursor → Option α} {next' : Cursor → Option β} {k : Cursor},
      (∀ l, a.Passes k l → (next l).map g = next' l) → (a.run k next).map g = a.run k next')
    (fuel : List Char) (h : ∀ l, ReflTransGen (Advances a.Passes) k l → (next l).map g = next' l) :
    (repeated a.run next fuel k).map g = repeated a.run next' fuel k := by
  induction fuel generalizing k with
  | nil => exact h k .refl
  | cons _ fuel ih =>
      rw [repeated, repeated, map_orElse, h k .refl]
      refine congrArg (· <|> next' k) (ha fun l hl => ?_)
      split
      · rename_i hless
        exact ih fun m hm => h m (.head ⟨hl, hless⟩ hm)
      · rfl

theorem map_findSome? {cursors : List Cursor} (h : ∀ l ∈ cursors, (next l).map g = next' l) :
    (cursors.findSome? next).map g = cursors.findSome? next' := by
  induction cursors with
  | nil => rfl
  | cons l cursors ih =>
      obtain ⟨hl, hcursors⟩ := List.forall_mem_cons.mp h
      rw [List.findSome?_cons, List.findSome?_cons, ← hl]
      cases next l with
      | none => exact ih hcursors
      | some x => rfl

/-- What is made of the end of each way is made of the way that is found. -/
theorem map_run (a : Pattern) (h : ∀ l, a.Passes k l → (next l).map g = next' l) :
    (a.run k next).map g = a.run k next' := by
  induction a generalizing k next next' with
  | empty => exact h k rfl
  | one p =>
      rw [run, run]
      split
      · rfl
      · rename_i c cs hrest
        split
        · exact h _ ⟨c, cs, hrest, by assumption, rfl⟩
        · rfl
  | many p => exact map_findSome? fun l hl => h l (List.mem_reverse.mp hl)
  | fewest p => exact map_findSome? h
  | seq a b iha ihb => exact iha fun m hm => ihb fun l hl => h l ⟨m, hm, hl⟩
  | alt a b iha ihb =>
      rw [run, run, map_orElse, iha fun l hl => h l (.inl hl), ihb fun l hl => h l (.inr hl)]
  | star a iha => exact map_repeated iha k.rest h
  | hold a iha => exact iha fun m hm => h _ ⟨m, hm, rfl⟩
  | again =>
      rw [run, run]
      cases hpass : k.passText? k.held with
      | none => rfl
      | some l => exact h l hpass
  | here p =>
      rw [run, run]
      split
      · exact h k ⟨by assumption, rfl⟩
      · rfl

end

section

variable {α : Type} {k : Cursor}

theorem run_congr (a : Pattern) {next next' : Cursor → Option α} (h : ∀ l, a.Passes k l → next l = next' l) :
    a.run k next = a.run k next' := by
  rw [← a.map_run fun l hl => (Option.map_id' (x := next l)).trans (h l hl), Option.map_id']

theorem run_eq_none (a : Pattern) {next : Cursor → Option α} (h : ∀ l, a.Passes k l → next l = none) :
    a.run k next = none := by
  rw [← Option.not_isSome_iff_eq_none]
  intro hsome
  obtain ⟨x, hx⟩ := Option.isSome_iff_exists.mp hsome
  obtain ⟨l, hl, hnext⟩ := (explores_run a).1 _ _ _ hx
  rw [h l hl] at hnext
  cases hnext

end

/-! ## The first and the last character -/

/-- No blank is of the class. -/
def isSolid (p : Char → Bool) : Bool := Text.blankNumbers.all fun n => !p (.ofNat n)

theorem not_isSpace_of_isSolid {p : Char → Bool} (h : isSolid p) {c : Char} (hc : p c) : ¬isSpace c := by
  intro hspace
  have hblank := List.all_eq_true.mp h c.toNat (Text.toNat_mem_blankNumbers hspace)
  rw [Char.ofNat_toNat, hc] at hblank
  cases hblank

mutual

/-- What the pattern passes, if anything, begins with a character that is no blank. -/
def opens : Pattern → Bool
  | empty | here _ => true
  | one p | many p | fewest p => isSolid p
  | seq a b => a.enters || a.opens && b.opens
  | alt a b => a.opens && b.opens
  | star a | hold a => a.opens
  | again => false

/-- The pattern passes something, first a character that is no blank. -/
def enters : Pattern → Bool
  | one p => isSolid p
  | seq a b => a.enters || a.opens && b.enters
  | alt a b => a.enters && b.enters
  | hold a => a.enters
  | empty | many _ | fewest _ | star _ | again | here _ => false

end

mutual

/-- What the pattern passes, if anything, ends with a character that is no blank. -/
def closes : Pattern → Bool
  | empty | here _ => true
  | one p | many p | fewest p => isSolid p
  | seq a b => b.leaves || a.closes && b.closes
  | alt a b => a.closes && b.closes
  | star a | hold a => a.closes
  | again => false

/-- The pattern passes something, last a character that is no blank. -/
def leaves : Pattern → Bool
  | one p => isSolid p
  | seq a b => b.leaves || a.leaves && b.closes
  | alt a b => a.leaves && b.leaves
  | hold a => a.leaves
  | empty | many _ | fewest _ | star _ | again | here _ => false

end

/-- What is between the cursors begins with a character that is no blank. -/
def OpensSolid (k l : Cursor) : Prop := ∃ c taken, Moves (c :: taken) k l ∧ ¬isSpace c

/-- What is between the cursors ends with a character that is no blank. -/
def ClosesSolid (k l : Cursor) : Prop := ∃ taken c, Moves (taken ++ [c]) k l ∧ ¬isSpace c

section

variable {p : Char → Bool} {k l m : Cursor} {taken : List Char}

theorem OpensSolid.trans (h : OpensSolid k m) (hl : Moves taken m l) : OpensSolid k l := by
  obtain ⟨c, u, hu, hc⟩ := h
  exact ⟨c, u ++ taken, hu.trans hl, hc⟩

theorem ClosesSolid.trans (hm : Moves taken k m) (h : ClosesSolid m l) : ClosesSolid k l := by
  obtain ⟨w, c, hw, hc⟩ := h
  refine ⟨taken ++ w, c, ?_, hc⟩
  rw [List.append_assoc]
  exact hm.trans hw

/-- In front of nothing there is only what begins there. -/
theorem OpensSolid.of_nil (hm : Moves [] k m) (h : OpensSolid m l) : OpensSolid k l := by
  obtain ⟨c, w, hw, hc⟩ := h
  exact ⟨c, w, hm.trans hw, hc⟩

theorem ClosesSolid.of_nil (h : ClosesSolid k m) (hl : Moves [] m l) : ClosesSolid k l := by
  obtain ⟨u, c, hu, hc⟩ := h
  refine ⟨u, c, ?_, hc⟩
  have hmoves := hu.trans hl
  rwa [List.append_nil] at hmoves

theorem solid_of_along (h : isSolid p) (hl : l ∈ Cursor.along p k.before k.held k.rest) :
    Moves [] k l ∨ OpensSolid k l ∧ ClosesSolid k l := by
  obtain ⟨taken, hrest, hbefore, htaken⟩ := exists_of_mem_along hl
  have hmoves : Moves taken k l := ⟨hrest, hbefore⟩
  have hsolid c (hc : c ∈ taken) : ¬isSpace c := not_isSpace_of_isSolid h (htaken c hc)
  rcases taken.eq_nil_or_concat' with rfl | ⟨u, d, rfl⟩
  · exact .inl hmoves
  · refine .inr ⟨?_, u, d, hmoves, hsolid d (List.mem_append_right u (List.mem_singleton_self d))⟩
    cases u with
    | nil => exact ⟨d, [], hmoves, hsolid d (List.mem_singleton_self d)⟩
    | cons c u => exact ⟨c, u ++ [d], hmoves, hsolid c List.mem_cons_self⟩

theorem solid_of_one (h : isSolid p) (hl : (one p).Passes k l) : OpensSolid k l ∧ ClosesSolid k l := by
  obtain ⟨c, cs, hrest, hc, rfl⟩ := hl
  have hmoves : Moves [c] k (k.pass c cs) := ⟨hrest, rfl⟩
  exact ⟨⟨c, [], hmoves, not_isSpace_of_isSolid h hc⟩, [], c, hmoves, not_isSpace_of_isSolid h hc⟩

end

theorem opens_spec (a : Pattern) :
    (a.opens → ∀ ⦃k l⦄, a.Passes k l → Moves [] k l ∨ OpensSolid k l) ∧
      (a.enters → ∀ ⦃k l⦄, a.Passes k l → OpensSolid k l) := by
  induction a with
  | empty => exact ⟨fun _ k _ h => .inl (h ▸ .refl k), nofun⟩
  | one p => exact ⟨fun h _ _ hl => .inr (solid_of_one h hl).1, fun h _ _ hl => (solid_of_one h hl).1⟩
  | many p => exact ⟨fun h _ _ hl => (solid_of_along h hl).imp_right And.left, nofun⟩
  | fewest p => exact ⟨fun h _ _ hl => (solid_of_along h hl).imp_right And.left, nofun⟩
  | seq a b iha ihb =>
      constructor
      · rintro h k l ⟨m, hm, hl⟩
        obtain ⟨taken, hmoves⟩ := exists_moves b hl
        rcases Bool.or_eq_true_iff.mp h with h | h
        · exact .inr ((iha.2 h hm).trans hmoves)
        · obtain ⟨ha, hb⟩ := Bool.and_eq_true_iff.mp h
          rcases iha.1 ha hm with hnil | hsolid
          · exact (ihb.1 hb hl).imp hnil.trans (.of_nil hnil)
          · exact .inr (hsolid.trans hmoves)
      · rintro h k l ⟨m, hm, hl⟩
        obtain ⟨taken, hmoves⟩ := exists_moves b hl
        rcases Bool.or_eq_true_iff.mp h with h | h
        · exact (iha.2 h hm).trans hmoves
        · obtain ⟨ha, hb⟩ := Bool.and_eq_true_iff.mp h
          rcases iha.1 ha hm with hnil | hsolid
          · exact .of_nil hnil (ihb.2 hb hl)
          · exact hsolid.trans hmoves
  | alt a b iha ihb =>
      constructor
      · intro h k l hl
        obtain ⟨ha, hb⟩ := Bool.and_eq_true_iff.mp h
        exact hl.elim (iha.1 ha ·) (ihb.1 hb ·)
      · intro h k l hl
        obtain ⟨ha, hb⟩ := Bool.and_eq_true_iff.mp h
        exact hl.elim (iha.2 ha ·) (ihb.2 hb ·)
  | star a iha =>
      refine ⟨fun h k l hl => ?_, nofun⟩
      rcases hl.cases_head with rfl | ⟨m, ⟨hm, hless⟩, hrest⟩
      · exact .inl (.refl k)
      · obtain ⟨taken, hmoves⟩ := exists_moves (star a) hrest
        refine .inr (OpensSolid.trans ((iha.1 h hm).resolve_left fun hnil => ?_) hmoves)
        rw [hnil.rest] at hless
        exact Nat.lt_irrefl _ hless
  | hold a iha =>
      constructor
      · rintro h k l ⟨m, hm, rfl⟩
        exact (iha.1 h hm).imp (fun hnil => ⟨hnil.rest, hnil.before⟩) fun ⟨c, u, hu, hc⟩ =>
          ⟨c, u, ⟨hu.rest, hu.before⟩, hc⟩
      · rintro h k l ⟨m, hm, rfl⟩
        obtain ⟨c, u, hu, hc⟩ := iha.2 h hm
        exact ⟨c, u, ⟨hu.rest, hu.before⟩, hc⟩
  | again => exact ⟨nofun, nofun⟩
  | here p => exact ⟨fun _ k _ h => .inl (h.2 ▸ .refl k), nofun⟩

theorem closes_spec (a : Pattern) :
    (a.closes → ∀ ⦃k l⦄, a.Passes k l → Moves [] k l ∨ ClosesSolid k l) ∧
      (a.leaves → ∀ ⦃k l⦄, a.Passes k l → ClosesSolid k l) := by
  induction a with
  | empty => exact ⟨fun _ k _ h => .inl (h ▸ .refl k), nofun⟩
  | one p => exact ⟨fun h _ _ hl => .inr (solid_of_one h hl).2, fun h _ _ hl => (solid_of_one h hl).2⟩
  | many p => exact ⟨fun h _ _ hl => (solid_of_along h hl).imp_right And.right, nofun⟩
  | fewest p => exact ⟨fun h _ _ hl => (solid_of_along h hl).imp_right And.right, nofun⟩
  | seq a b iha ihb =>
      constructor
      · rintro h k l ⟨m, hm, hl⟩
        obtain ⟨taken, hmoves⟩ := exists_moves a hm
        rcases Bool.or_eq_true_iff.mp h with h | h
        · exact .inr (.trans hmoves (ihb.2 h hl))
        · obtain ⟨ha, hb⟩ := Bool.and_eq_true_iff.mp h
          rcases ihb.1 hb hl with hnil | hsolid
          · exact (iha.1 ha hm).imp (·.trans hnil) (·.of_nil hnil)
          · exact .inr (.trans hmoves hsolid)
      · rintro h k l ⟨m, hm, hl⟩
        obtain ⟨taken, hmoves⟩ := exists_moves a hm
        rcases Bool.or_eq_true_iff.mp h with h | h
        · exact .trans hmoves (ihb.2 h hl)
        · obtain ⟨ha, hb⟩ := Bool.and_eq_true_iff.mp h
          rcases ihb.1 hb hl with hnil | hsolid
          · exact (iha.2 ha hm).of_nil hnil
          · exact .trans hmoves hsolid
  | alt a b iha ihb =>
      constructor
      · intro h k l hl
        obtain ⟨ha, hb⟩ := Bool.and_eq_true_iff.mp h
        exact hl.elim (iha.1 ha ·) (ihb.1 hb ·)
      · intro h k l hl
        obtain ⟨ha, hb⟩ := Bool.and_eq_true_iff.mp h
        exact hl.elim (iha.2 ha ·) (ihb.2 hb ·)
  | star a iha =>
      refine ⟨fun h k l hl => ?_, nofun⟩
      rcases hl.cases_tail with rfl | ⟨m, hrest, hm, hless⟩
      · exact .inl (.refl _)
      · obtain ⟨taken, hmoves⟩ := exists_moves (star a) hrest
        refine .inr (.trans hmoves ((iha.1 h hm).resolve_left fun hnil => ?_))
        rw [hnil.rest] at hless
        exact Nat.lt_irrefl _ hless
  | hold a iha =>
      constructor
      · rintro h k l ⟨m, hm, rfl⟩
        exact (iha.1 h hm).imp (fun hnil => ⟨hnil.rest, hnil.before⟩) fun ⟨u, c, hu, hc⟩ =>
          ⟨u, c, ⟨hu.rest, hu.before⟩, hc⟩
      · rintro h k l ⟨m, hm, rfl⟩
        obtain ⟨u, c, hu, hc⟩ := iha.2 h hm
        exact ⟨u, c, ⟨hu.rest, hu.before⟩, hc⟩
  | again => exact ⟨nofun, nofun⟩
  | here p => exact ⟨fun _ k _ h => .inl (h.2 ▸ .refl k), nofun⟩

end Clipboard.Pattern
