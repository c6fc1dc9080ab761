import Mathlib.Data.List.DropRight
import Clipboard.Proofs.Pattern.Edges

/-!
Searches in a text with blanks in front of it. A pattern that begins with a character that is no blank, or that
passes over the blanks at the start of a line, ends its first match where it ends it without them.
-/

namespace Clipboard.Pattern

open Text (isSpace isBlank isWord)

/-! ## Conditions -/

/-- Every condition in the pattern is of the kind. -/
def Heres (kind : (Option Char → List Char → Bool) → Prop) : Pattern → Prop
  | here p => kind p
  | seq a b | alt a b => a.Heres kind ∧ b.Heres kind
  | star a | hold a => a.Heres kind
  | empty | one _ | many _ | fewest _ | again => True

/-- To the condition a blank before it is as the start of the text. -/
def IgnoresFront (p : Option Char → List Char → Bool) : Prop :=
  ∀ c rest, isSpace c → p (some c) rest = p none rest

/-! ## Blanks in front -/

section

variable {a : Pattern} {α : Type} {c : Char} {rest held : List Char} {next : Cursor → Option α}

theorem findSome?_along_blank {p : Char → Bool} (h : next ⟨some c, rest, held⟩ = next ⟨none, rest, held⟩) :
    (Cursor.along p (some c) held rest).findSome? next = (Cursor.along p none held rest).findSome? next ∧
      (Cursor.along p (some c) held rest).reverse.findSome? next =
        (Cursor.along p none held rest).reverse.findSome? next := by
  cases rest with
  | nil => simp [Cursor.along, h]
  | cons d ds => simp [Cursor.along, h, List.findSome?_cons, List.findSome?_append]

theorem run_blank_before (ha : a.Heres IgnoresFront) (hc : isSpace c)
    (hnext : ∀ held, next ⟨some c, rest, held⟩ = next ⟨none, rest, held⟩) :
    a.run ⟨some c, rest, held⟩ next = a.run ⟨none, rest, held⟩ next := by
  induction a generalizing held next with
  | empty => exact hnext held
  | one p => rfl
  | many p => exact (findSome?_along_blank (hnext held)).2
  | fewest p => exact (findSome?_along_blank (hnext held)).1
  | seq a b iha ihb => exact iha ha.1 fun held => ihb ha.2 hnext
  | alt a b iha ihb => rw [run, run, iha ha.1 hnext, ihb ha.2 hnext]
  | star a iha =>
      rw [run, run]
      cases rest with
      | nil => exact hnext held
      | cons d ds =>
          rw [repeated, repeated, hnext held]
          refine congrArg (· <|> next ⟨none, d :: ds, held⟩) (iha ha fun held => ?_)
          simp
  | hold a iha => exact iha ha fun held => hnext _
  | again =>
      rw [run, run]
      cases held with
      | nil => exact hnext []
      | cons d ds => rfl
  | here p => rw [run, run, ha c rest hc, hnext held]

theorem length_lt_of_enters (h : a.enters) {k l : Cursor} (hl : a.Passes k l) : l.rest.length < k.rest.length := by
  obtain ⟨c, taken, hmoves, -⟩ := a.opens_spec.2 h hl
  rw [hmoves.rest, List.length_append, List.length_cons]
  omega

theorem match?_blank_before (henters : a.enters) (ha : a.Heres IgnoresFront) {before : Option Char}
    (hbefore : ∀ c ∈ before, isSpace c) : a.match? ⟨before, rest, held⟩ = a.match? ⟨none, rest, held⟩ := by
  cases before with
  | none => rfl
  | some c =>
      -- The pattern does not end where it begins, so what follows need not be the same there.
      let next (l : Cursor) : Option Cursor := if l.rest.length < rest.length then some l else none
      have hnext (before : Option Char) : a.match? ⟨before, rest, held⟩ = a.run ⟨before, rest, held⟩ next :=
        a.run_congr fun l hl => (if_pos (length_lt_of_enters henters hl)).symm
      rw [hnext, hnext]
      refine run_blank_before ha (hbefore c rfl) fun held => ?_
      simp [next]

theorem match?_eq_none_of_blank (henters : a.enters) {before : Option Char} (hc : isSpace c) :
    a.match? ⟨before, c :: rest, held⟩ = none := by
  refine a.run_eq_none fun l hl => ?_
  obtain ⟨d, taken, hmoves, hd⟩ := a.opens_spec.2 henters hl
  obtain ⟨rfl, -⟩ := List.cons.inj hmoves.rest
  exact absurd hc hd

end

/-! ## Patterns that begin with no blank -/

section

variable {a : Pattern} {before : Option Char}

theorem begins_of_enters (h : a.enters) : Begins (¬isSpace ·) a := by
  intro k l hl
  obtain ⟨c, taken, hmoves, hc⟩ := a.opens_spec.2 h hl
  exact ⟨c, taken ++ l.rest, hmoves.rest, hc⟩

theorem search?_blank_append (henters : a.enters) {front : List Char} (hfront : isBlank front) (cs : List Char) :
    a.search? (front ++ cs) = a.searchFrom (front.getLast?.or none) cs := by
  refine searchFrom_append fun u c w hu => match?_eq_none (begins_of_enters henters) ?_ _ _ _
  exact not_not_intro (List.all_eq_true.mp hfront c (by simp [hu]))

end

/-! ## What a pattern runs first -/

/-- The part that the pattern runs first. -/
def head : Pattern → Pattern
  | seq a _ => a.head
  | a => a

/-- The parts that the pattern runs after the first one. -/
def tail : Pattern → Pattern
  | seq (seq a b) c => seq (tail (seq a b)) c
  | seq _ b => b
  | _ => empty

@[simp] theorem tail_append_append (a b c : Pattern) : (a ++ b ++ c).tail = (a ++ b).tail ++ c := rfl

@[simp] theorem tail_lineStart_append (a : Pattern) : (lineStart ++ a).tail = a := rfl

@[simp] theorem tail_textStart_append (a : Pattern) : (textStart ++ a).tail = a := rfl

@[simp] theorem tail_spaces_append (a : Pattern) : (spaces ++ a).tail = a := rfl

theorem run_head_tail {α : Type} (a : Pattern) (k : Cursor) (next : Cursor → Option α) :
    a.run k next = a.head.run k fun l => a.tail.run l next := by
  induction a generalizing next with
  | seq a b iha _ =>
      cases a with
      | seq => exact iha fun l => b.run l next
      | _ => rfl
  | _ => rfl

/-- The cursor behind the blanks that follow. -/
def behindBlanks (k : Cursor) : Cursor :=
  ⟨(k.rest.takeWhile isSpace).getLast?.or k.before, k.rest.dropWhile isSpace, k.held⟩

/-- Behind fewer blanks than there are no way begins. -/
theorem run_spaces {α : Type} {a : Pattern} (henters : a.enters) (k : Cursor) (next : Cursor → Option α) :
    spaces.run k (fun l => a.run l next) = a.run (behindBlanks k) next := by
  obtain ⟨before, rest, held⟩ := k
  rw [spaces, run]
  dsimp only
  induction rest generalizing before with
  | nil => simp [Cursor.along, behindBlanks]
  | cons c rest ih =>
      by_cases hc : isSpace c
      · have hnone : a.run ⟨before, c :: rest, held⟩ next = none := by
          refine a.run_eq_none fun l hl => ?_
          obtain ⟨d, taken, hmoves, hd⟩ := a.opens_spec.2 henters hl
          obtain ⟨rfl, -⟩ := List.cons.inj hmoves.rest
          exact absurd hc hd
        have hlast : behindBlanks ⟨before, c :: rest, held⟩ = behindBlanks ⟨some c, rest, held⟩ := by
          simp only [behindBlanks, List.takeWhile_cons, List.dropWhile_cons, hc, if_true, getLast?_cons_or]
        rw [hlast, ← ih, Cursor.along, if_pos hc, List.reverse_cons, List.findSome?_append,
          List.findSome?_singleton, hnone, Option.or_none]
      · have hstay : behindBlanks ⟨before, c :: rest, held⟩ = ⟨before, c :: rest, held⟩ := by
          simp [behindBlanks, hc]
        simp [Cursor.along, hc, hstay]

theorem match?_behindBlanks {a : Pattern} (henters : a.enters) (ha : a.Heres IgnoresFront) {k : Cursor}
    (hbefore : ∀ c ∈ k.before, isSpace c) :
    a.match? (behindBlanks k) = a.match? ⟨none, k.rest.dropWhile isSpace, k.held⟩ := by
  refine match?_blank_before henters ha fun c hc => ?_
  rcases Option.or_eq_some_iff.mp hc with hc | ⟨-, hc⟩
  · exact List.mem_takeWhile_imp (List.mem_of_getLast? hc)
  · exact hbefore c hc

/-- The pattern passes over blanks first, after a condition that holds at the start of a text. -/
structure Indented (a : Pattern) : Prop where
  start : ∃ p, a.head = here p ∧ ∀ rest, p none rest := by exact ⟨_, rfl, fun _ => rfl⟩
  blanks : a.tail.head = spaces := by rfl
  enters : a.tail.tail.enters := by decide +kernel
  heres : a.tail.tail.Heres IgnoresFront := by simp

namespace Indented

variable {a : Pattern} {before : Option Char} {rest held : List Char}

theorem match?_eq (h : Indented a) : ∃ p : Option Char → List Char → Bool, (∀ rest, p none rest) ∧
    ∀ k, a.match? k = if p k.before k.rest then a.tail.tail.match? (behindBlanks k) else none := by
  obtain ⟨p, hhead, hp⟩ := h.start
  refine ⟨p, hp, fun k => ?_⟩
  rw [match?, run_head_tail, hhead, run]
  refine ite_congr rfl (fun _ => ?_) fun _ => rfl
  rw [run_head_tail, h.blanks]
  exact run_spaces h.enters k some

theorem match?_start (h : Indented a) (rest held : List Char) :
    a.match? ⟨none, rest, held⟩ = a.tail.tail.match? ⟨none, rest.dropWhile isSpace, held⟩ := by
  obtain ⟨p, hp, hmatch⟩ := h.match?_eq
  rw [hmatch, if_pos (hp rest), match?_behindBlanks h.enters h.heres (by simp)]

/-- Where there is no match at the start of a text, there is none behind blanks. -/
theorem match?_eq_none (h : Indented a) (hbefore : ∀ c ∈ before, isSpace c)
    (hnone : a.match? ⟨none, rest, held⟩ = none) : a.match? ⟨before, rest, held⟩ = none := by
  obtain ⟨p, -, hmatch⟩ := h.match?_eq
  rw [hmatch, match?_behindBlanks h.enters h.heres hbefore, ← h.match?_start, hnone, ite_self]

end Indented

/-! ## Searches -/

section

variable {a : Pattern} {before before' : Option Char} {rest : List Char}

/-- Where no match begins, it does not matter to a search what stands before. -/
theorem searchFrom_of_match?_eq_none (h : a.match? ⟨before, rest, []⟩ = none)
    (h' : a.match? ⟨before', rest, []⟩ = none) : a.searchFrom before rest = a.searchFrom before' rest := by
  cases rest with
  | nil => rw [searchFrom, searchFrom, h, h']; rfl
  | cons c cs => rw [searchFrom, searchFrom, h, h']

/-- What depends on the text behind its first blanks is the same with more of them. -/
theorem append_of_dropWhile {β : Type} {f : List Char → β} (h : ∀ cs, f cs = f (cs.dropWhile isSpace))
    {front : List Char} (hfront : isBlank front) (cs : List Char) : f (front ++ cs) = f cs := by
  rw [h, List.dropWhile_append_of_pos (List.all_eq_true.mp hfront), ← h]

/-- The first match ends where it ends in the text without the blanks in front. -/
theorem map_search?_dropWhile (henters : a.enters) (ha : a.Heres IgnoresFront) (cs : List Char) :
    (a.search? cs).map Prod.snd = (a.search? (cs.dropWhile isSpace)).map Prod.snd := by
  have hfront : isBlank (cs.takeWhile isSpace) := List.all_eq_true.mpr fun c => List.mem_takeWhile_imp
  have hsearch := search?_blank_append henters hfront (cs.dropWhile isSpace)
  rw [List.takeWhile_append_dropWhile, Option.or_none] at hsearch
  have hmatch : a.match? ⟨(cs.takeWhile isSpace).getLast?, cs.dropWhile isSpace, []⟩ =
      a.match? ⟨none, cs.dropWhile isSpace, []⟩ :=
    match?_blank_before henters ha fun c hc => List.all_eq_true.mp hfront c (List.mem_of_getLast? hc)
  rw [hsearch, search?]
  cases hnone : a.match? ⟨none, cs.dropWhile isSpace, []⟩ with
  | none => rw [searchFrom_of_match?_eq_none (hmatch.trans hnone) hnone]
  | some l =>
      rw [searchFrom_of_match? hnone, searchFrom_of_match? (hmatch.trans hnone)]
      rfl

theorem Indented.map_search?_dropWhile (h : Indented a) (cs : List Char) :
    (a.search? cs).map Prod.snd = (a.search? (cs.dropWhile isSpace)).map Prod.snd := by
  have hfront : ∀ c ∈ cs.takeWhile isSpace, isSpace c := fun c => List.mem_takeWhile_imp
  have hdrop : (cs.dropWhile isSpace).dropWhile isSpace = cs.dropWhile isSpace := List.dropWhile_idempotent ..
  have hstart : a.match? ⟨none, cs.dropWhile isSpace, []⟩ = a.match? ⟨none, cs, []⟩ := by
    rw [h.match?_start, hdrop, h.match?_start]
  rw [search?, search?]
  cases hmatch : a.match? ⟨none, cs, []⟩ with
  | some l =>
      rw [searchFrom_of_match? hmatch, searchFrom_of_match? (hstart.trans hmatch)]
      rfl
  | none =>
      -- The blanks in front do not match either: each of them is followed by what has no match at its start.
      have hskip : a.searchFrom none (cs.takeWhile isSpace ++ cs.dropWhile isSpace) =
          a.searchFrom ((cs.takeWhile isSpace).getLast?.or none) (cs.dropWhile isSpace) := by
        refine searchFrom_append fun u c w hu => h.match?_eq_none (fun d hd => ?_) ?_
        · rw [Option.or_none] at hd
          exact hfront d (hu ▸ List.mem_append_left _ (List.mem_of_getLast? hd))
        · have hw : ∀ d ∈ c :: w, isSpace d := fun d hd => hfront d (hu ▸ List.mem_append_right u hd)
          rw [h.match?_start, ← List.cons_append, List.dropWhile_append_of_pos hw, hdrop, ← h.match?_start, hmatch]
      rw [List.takeWhile_append_dropWhile, Option.or_none] at hskip
      rw [hskip, searchFrom_of_match?_eq_none (h.match?_eq_none _ (hstart.trans hmatch)) (hstart.trans hmatch)]
      exact fun c hc => hfront c (List.mem_of_getLast? hc)

end

end Clipboard.Pattern
