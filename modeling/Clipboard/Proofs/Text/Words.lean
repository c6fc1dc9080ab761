import Mathlib.Data.List.TakeWhile
import Clipboard.Proofs.Text.Lower

/-!
The words of a text: its parts between blanks, in order. Joined again, they have one separator where there
were blanks between two of them.
-/

namespace Clipboard.Text

/-! ## One word after the other -/

theorem words_cons_of_isSpace {c : Char} (h : isSpace c) (cs : List Char) :
    words (c :: cs) = words cs := by
  rw [words, if_pos h]

/-- A word ends before the next blank. -/
theorem words_cons {c : Char} (h : ¬isSpace c) (cs : List Char) : words (c :: cs) =
    (c :: cs.takeWhile (!isSpace ·)) :: words (cs.dropWhile (!isSpace ·)) := by
  induction cs generalizing c with
  | nil => simp [words, h]
  | cons d ds ih =>
      rw [words, if_neg h]
      by_cases hd : isSpace d
      · simp [hd]
      · simp [hd, ih hd]

theorem words_spec {w : List Char} (cs : List Char) (h : w ∈ words cs) :
    w <:+: cs ∧ ∀ c ∈ w, ¬isSpace c := by
  match cs with
  | [] => cases h
  | c :: cs =>
      by_cases hc : isSpace c
      · rw [words_cons_of_isSpace hc] at h
        obtain ⟨hpart, hsolid⟩ := words_spec cs h
        exact ⟨List.infix_cons hpart, hsolid⟩
      · rw [words_cons hc] at h
        rcases List.mem_cons.mp h with rfl | h
        · have hfront : cs.takeWhile (!isSpace ·) <+: cs := List.takeWhile_prefix _
          refine ⟨(List.cons_prefix_cons.mpr ⟨rfl, hfront⟩).isInfix, ?_⟩
          refine List.forall_mem_cons.mpr ⟨hc, fun d hd => ?_⟩
          simpa using List.mem_takeWhile_imp hd
        · have hback : cs.dropWhile (!isSpace ·) <:+ cs := List.dropWhile_suffix _
          obtain ⟨hpart, hsolid⟩ := words_spec _ h
          exact ⟨List.infix_cons (hpart.trans hback.isInfix), hsolid⟩
termination_by cs.length
decreasing_by
  · exact Nat.lt_succ_self _
  · exact Nat.lt_succ_of_le hback.length_le

/-- Where other characters are made blanks, the words are still parts of the text. -/
theorem isInfix_of_mem_words_map {w cs : List Char} {f : Char → Char}
    (hf : ∀ c ∈ cs, ¬isSpace (f c) → f c = c) (h : w ∈ words (cs.map f)) : w <:+: cs := by
  obtain ⟨⟨front, back, hcs⟩, hsolid⟩ := words_spec _ h
  obtain ⟨ws, back', rfl, hfront, -⟩ := List.map_eq_append_iff.mp hcs.symm
  obtain ⟨front', part, rfl, -, hpart⟩ := List.map_eq_append_iff.mp hfront
  have hself : part.map f = part.map id := by
    refine List.map_congr_left fun c hc => hf c ?_ (hsolid _ ?_)
    · exact List.mem_append_left _ (List.mem_append_right _ hc)
    · exact hpart ▸ List.mem_map_of_mem hc
  rw [← hpart, hself, List.map_id]
  exact List.infix_append _ _ _

/-! ## Words joined -/

/-- A character joined to the words behind it; between it and a blank a word ends. -/
theorem join_words_cons {c : Char} (h : ¬isSpace c) (cs : List Char) :
    join ['-'] (words (c :: cs)) = c ::
      ((if cs.head?.any isSpace && !(words cs).isEmpty then ['-'] else []) ++ join ['-'] (words cs)) := by
  rw [words, if_neg h]
  cases cs with
  | nil => rfl
  | cons d ds =>
      by_cases hd : isSpace d
      · simp only [List.head?_cons, Option.all_some, Option.any_some, hd, if_true]
        cases words (d :: ds) <;> simp [join]
      · simp only [List.head?_cons, Option.all_some, Option.any_some, hd, words_cons hd]
        cases words (ds.dropWhile (!isSpace ·)) <;> simp [join]

theorem join_words_of_no_space {cs : List Char} (h : ∀ c ∈ cs, ¬isSpace c) :
    join ['-'] (words cs) = cs := by
  induction cs with
  | nil => rfl
  | cons c cs ih =>
      obtain ⟨hc, hcs⟩ := List.forall_mem_cons.mp h
      have hnext : cs.head?.any isSpace = false := by
        cases cs with
        | nil => rfl
        | cons d ds => simpa using hcs d List.mem_cons_self
      rw [join_words_cons hc, hnext, ih hcs]
      rfl

end Clipboard.Text
