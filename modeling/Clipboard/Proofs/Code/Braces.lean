import Clipboard.Code.Rubric

/-!
Balanced braces. The words of balanced braces are given by a grammar; the counter of open braces accepts the
texts whose braces, with everything else left out, are such a word.
-/

namespace Clipboard.Code

def isBrace (c : Char) : Bool := c == '\x7b' || c == '\x7d'

/-- The words of balanced braces. -/
inductive Balanced : List Char → Prop
  | empty : Balanced []
  | wrap {w : List Char} : Balanced w → Balanced ('\x7b' :: w ++ ['\x7d'])
  | append {u w : List Char} : Balanced u → Balanced w → Balanced (u ++ w)

/-- The words that close `depth` open braces: as many closing ones, with balanced words around them. -/
inductive Closes : Nat → List Char → Prop
  | balanced {w : List Char} : Balanced w → Closes 0 w
  | close {depth : Nat} {u w : List Char} : Balanced u → Closes depth w →
      Closes (depth + 1) (u ++ '\x7d' :: w)

/-! ## Counting -/

section

variable {depth : Nat} {cs : List Char}

@[simp]
theorem braceDepth?_open : braceDepth? depth ('\x7b' :: cs) = braceDepth? (depth + 1) cs := by
  simp [braceDepth?]

@[simp]
theorem braceDepth?_close : braceDepth? (depth + 1) ('\x7d' :: cs) = braceDepth? depth cs := by
  simp [braceDepth?]

@[simp]
theorem braceDepth?_close_zero : braceDepth? 0 ('\x7d' :: cs) = none := by
  simp [braceDepth?]

theorem braceDepth?_other {c : Char} (h : ¬isBrace c) : braceDepth? depth (c :: cs) = braceDepth? depth cs := by
  obtain ⟨hopen, hclose⟩ := not_or.mp (Bool.or_eq_true _ _ ▸ h)
  rw [braceDepth?.eq_def]
  simp only [hopen, hclose, Bool.false_eq_true, if_false]

/-- Only the braces count. -/
theorem braceDepth?_filter : braceDepth? depth (cs.filter isBrace) = braceDepth? depth cs := by
  induction cs generalizing depth with
  | nil => rfl
  | cons c cs ih =>
      by_cases hc : isBrace c
      · rw [List.filter_cons_of_pos hc]
        rcases Bool.or_eq_true_iff.mp hc with hopen | hclose
        · obtain rfl := eq_of_beq hopen
          rw [braceDepth?_open, braceDepth?_open, ih]
        · obtain rfl := eq_of_beq hclose
          cases depth with
          | zero => rw [braceDepth?_close_zero, braceDepth?_close_zero]
          | succ depth => rw [braceDepth?_close, braceDepth?_close, ih]
      · rw [List.filter_cons_of_neg hc, braceDepth?_other hc, ih]

end

/-! ## The grammar and the counter -/

/-- A balanced word leaves the depth as it is, whatever follows. -/
theorem Balanced.braceDepth?_append {w : List Char} (h : Balanced w) (depth : Nat) (rest : List Char) :
    braceDepth? depth (w ++ rest) = braceDepth? depth rest := by
  induction h generalizing depth rest with
  | empty => rfl
  | wrap _ ih =>
      rw [List.append_assoc, List.cons_append, braceDepth?_open, ih, List.singleton_append, braceDepth?_close]
  | append _ _ ihu ihw => rw [List.append_assoc, ihu, ihw]

theorem Closes.of_balanced_append {u w : List Char} {depth : Nat} (hu : Balanced u) (h : Closes depth w) :
    Closes depth (u ++ w) := by
  cases h with
  | balanced hw => exact .balanced (hu.append hw)
  | close hv hw =>
      rw [← List.append_assoc]
      exact .close (hu.append hv) hw

theorem Closes.open {w : List Char} {depth : Nat} (h : Closes (depth + 1) w) : Closes depth ('\x7b' :: w) := by
  cases h with
  | close hu hw =>
      have hwrapped := Closes.of_balanced_append hu.wrap hw
      simpa using hwrapped

/-- A word of braces after which none is open closes those that were. -/
theorem closes_of_braceDepth? {w : List Char} {depth : Nat} (hw : ∀ c ∈ w, isBrace c)
    (h : braceDepth? depth w = some 0) : Closes depth w := by
  induction w generalizing depth with
  | nil =>
      cases h
      exact .balanced .empty
  | cons c w ih =>
      obtain ⟨hc, hrest⟩ := List.forall_mem_cons.mp hw
      rcases Bool.or_eq_true_iff.mp hc with hopen | hclose
      · obtain rfl := eq_of_beq hopen
        rw [braceDepth?_open] at h
        exact (ih hrest h).open
      · obtain rfl := eq_of_beq hclose
        cases depth with
        | zero =>
            rw [braceDepth?_close_zero] at h
            cases h
        | succ depth =>
            rw [braceDepth?_close] at h
            exact .close .empty (ih hrest h)

theorem balanced_iff_braceDepth? {w : List Char} (hw : ∀ c ∈ w, isBrace c) :
    Balanced w ↔ braceDepth? 0 w = some 0 := by
  constructor
  · intro h
    have hdepth := h.braceDepth?_append 0 []
    rwa [List.append_nil] at hdepth
  · intro h
    cases closes_of_braceDepth? hw h with
    | balanced h => exact h

/-- A text has balanced braces exactly if it has an opening brace and its braces, everything else left out,
are a word of the grammar. -/
theorem hasBalancedBraces_iff (cs : List Char) :
    hasBalancedBraces cs ↔ '\x7b' ∈ cs ∧ Balanced (cs.filter isBrace) := by
  have hbraces : ∀ c ∈ cs.filter isBrace, isBrace c := fun c hc => (List.mem_filter.mp hc).2
  rw [hasBalancedBraces, Bool.and_eq_true, List.contains_iff_mem, beq_iff_eq,
    balanced_iff_braceDepth? hbraces, braceDepth?_filter]

example : hasBalancedBraces "f \x7b a \x7b b \x7d \x7d g \x7b \x7d".toList ∧
    ¬hasBalancedBraces "\x7d \x7b".toList ∧ ¬hasBalancedBraces "no braces".toList := by
  decide

end Clipboard.Code
