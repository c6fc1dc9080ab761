import Mathlib.Data.List.TakeWhile
import Clipboard.Text.Case
import Clipboard.Text.Split

/-!
Parts of a text in lower case. A part lowers within the text as it does alone, apart from its capital
sigmas: whether one of them ends a word is told by the letters around it.
-/

namespace Clipboard.Text

/-- The characters of a text are tried one by one, not all the characters there are. -/
instance (priority := 1100) decidableForallMem {p : Char → Prop} [DecidablePred p] (cs : List Char) :
    Decidable (∀ c ∈ cs, p c) :=
  List.decidableBAll p cs

/-! ## Parts -/

theorem hasPart_iff_isInfix {part cs : List Char} : hasPart part cs ↔ part <:+: cs := by
  induction cs with
  | nil => simp [hasPart]
  | cons c cs ih => simp [hasPart, ih, List.infix_cons_iff]

theorem dropWhileEnd_append_blank (cs : List Char) :
    ∃ blank, cs = dropWhileEnd isSpace cs ++ blank ∧ isBlank blank := by
  refine ⟨(cs.reverse.takeWhile isSpace).reverse, ?_, ?_⟩
  · rw [dropWhileEnd, ← List.reverse_append, List.takeWhile_append_dropWhile, List.reverse_reverse]
  · rw [isBlank, List.all_reverse]
    exact List.all_takeWhile

theorem dropWhileEnd_append {back : List Char} (h : ¬isBlank back) (front : List Char) :
    dropWhileEnd isSpace (front ++ back) = front ++ dropWhileEnd isSpace back := by
  have hrest : back.reverse.dropWhile isSpace ≠ [] := by
    rw [ne_eq, List.dropWhile_eq_nil_iff]
    intro hall
    exact h (List.all_eq_true.mpr fun c hc => hall c (List.mem_reverse.mpr hc))
  rw [dropWhileEnd, List.reverse_append, List.dropWhile_append, if_neg (by simpa using hrest),
    List.reverse_append, List.reverse_reverse, dropWhileEnd]

theorem dropWhileEnd_append_of_isBlank {blank : List Char} (h : isBlank blank) (cs : List Char) :
    dropWhileEnd isSpace (cs ++ blank) = dropWhileEnd isSpace cs := by
  have hblank : ∀ c ∈ blank.reverse, isSpace c := fun c hc =>
    List.all_eq_true.mp h c (List.mem_reverse.mp hc)
  rw [dropWhileEnd, List.reverse_append, List.dropWhile_append_of_pos hblank, dropWhileEnd]

theorem trim_append_of_isBlank {blank : List Char} (h : isBlank blank) (cs : List Char) :
    trim (cs ++ blank) = trim cs := by
  have hnil : blank.dropWhile isSpace = [] :=
    List.dropWhile_eq_nil_iff.mpr (List.all_eq_true.mp h)
  rw [trim, trim, List.dropWhile_append]
  split
  · rename_i hempty
    rw [List.isEmpty_iff.mp hempty, hnil]
  · exact dropWhileEnd_append_of_isBlank h _

theorem trim_dropWhileEnd (cs : List Char) : trim (dropWhileEnd isSpace cs) = trim cs := by
  obtain ⟨blank, hcs, hblank⟩ := dropWhileEnd_append_blank cs
  calc trim (dropWhileEnd isSpace cs)
      = trim (dropWhileEnd isSpace cs ++ blank) := (trim_append_of_isBlank hblank _).symm
    _ = trim cs := by rw [← hcs]

theorem exists_eq_append_trim (cs : List Char) :
    ∃ front back, cs = front ++ trim cs ++ back ∧ isBlank front ∧ isBlank back := by
  obtain ⟨back, hback, hblank⟩ := dropWhileEnd_append_blank (cs.dropWhile isSpace)
  refine ⟨cs.takeWhile isSpace, back, ?_, List.all_takeWhile, hblank⟩
  rw [trim, List.append_assoc, ← hback, List.takeWhile_append_dropWhile]

theorem trim_ne_nil {cs : List Char} (h : ¬isBlank cs) : trim cs ≠ [] := by
  intro hnil
  obtain ⟨front, back, hcs, hfront, hback⟩ := exists_eq_append_trim cs
  rw [hnil, List.append_nil] at hcs
  refine h ?_
  rw [hcs, isBlank, List.all_append, Bool.and_eq_true]
  exact ⟨hfront, hback⟩

theorem not_isSpace_of_trim {c : Char} {cs ds : List Char} (h : trim cs = c :: ds) : ¬isSpace c := by
  obtain ⟨blank, hcs, -⟩ := dropWhileEnd_append_blank (cs.dropWhile isSpace)
  have hfront := List.head?_dropWhile_not isSpace cs
  rw [trim] at h
  rw [hcs, h] at hfront
  simpa using hfront

theorem not_isSpace_of_getLast?_trim {c : Char} {cs : List Char} (h : c ∈ (trim cs).getLast?) :
    ¬isSpace c := by
  have hlast := List.head?_dropWhile_not isSpace (cs.dropWhile isSpace).reverse
  rw [trim, dropWhileEnd, List.getLast?_reverse] at h
  simpa [Option.mem_def.mp h] using hlast

theorem not_isSpace_of_visible {c : Char} (h : 32 < c.toNat ∧ c.toNat < 127) : ¬isSpace c := by
  simp only [isSpace, Bool.or_eq_true, Bool.and_eq_true, decide_eq_true_eq, beq_iff_eq]
  omega

theorem trim_of_no_space {cs : List Char} (h : ∀ c ∈ cs, ¬isSpace c) : trim cs = cs := by
  have hfront : ∀ ds : List Char, (∀ c ∈ ds, ¬isSpace c) → ds.dropWhile isSpace = ds := by
    intro ds hds
    cases ds with
    | nil => rfl
    | cons d ds => exact List.dropWhile_cons_of_neg (hds d List.mem_cons_self)
  rw [trim, dropWhileEnd, hfront cs h, hfront cs.reverse fun c hc => h c (List.mem_reverse.mp hc),
    List.reverse_reverse]

/-- A text without blanks does not reach into the blanks behind another one. -/
theorem prefix_of_no_space (text : List Char) {u back : List Char} (hu : ∀ c ∈ u, ¬isSpace c)
    (hback : isBlank back) (h : u <+: text ++ back) : u <+: text := by
  rcases List.prefix_or_prefix_of_prefix h (List.prefix_append text back) with hle | ⟨more, rfl⟩
  · exact hle
  · cases more with
    | nil => simp
    | cons c more =>
        rw [List.prefix_append_right_inj] at h
        have hc : c ∈ back := h.subset List.mem_cons_self
        exact absurd (List.all_eq_true.mp hback c hc) (hu c (by simp))

/-! ## Letters nearby -/

theorem nextIsCased_append {front back : List Char} (h : ¬nextIsCased back) :
    nextIsCased (front ++ back) = nextIsCased front := by
  unfold nextIsCased
  rw [List.dropWhile_append]
  split
  · rename_i hempty
    rw [List.isEmpty_iff.mp hempty]
    simpa [nextIsCased] using h
  · rename_i hsome
    cases hrest : front.dropWhile isCaseIgnorable with
    | nil => simp [hrest] at hsome
    | cons c cs => rfl

theorem isFinalSigma_append {before after : List Char} (hbefore : ¬nextIsCased before)
    (hafter : ¬nextIsCased after) (front back : List Char) :
    isFinalSigma (front ++ before) (back ++ after) = isFinalSigma front back := by
  rw [isFinalSigma, nextIsCased_append hbefore, nextIsCased_append hafter, isFinalSigma]

/-- The numbers of the blanks. -/
def blankNumbers : List Nat :=
  [9, 10, 11, 12, 13, 28, 29, 30, 31, 32, 133, 160, 5760, 8192, 8193, 8194, 8195, 8196, 8197, 8198,
    8199, 8200, 8201, 8202, 8232, 8233, 8239, 8287, 12288]

theorem toNat_mem_blankNumbers {c : Char} (h : isSpace c) : c.toNat ∈ blankNumbers := by
  simp only [isSpace, Bool.or_eq_true, Bool.and_eq_true, decide_eq_true_eq, beq_iff_eq] at h
  simp only [blankNumbers, List.mem_cons, List.not_mem_nil, or_false]
  omega

theorem not_letter_of_isSpace {c : Char} (h : isSpace c) : ¬isCaseIgnorable c ∧ ¬isCased c := by
  have hall : ∀ n ∈ blankNumbers,
      ¬isCaseIgnorable (Char.ofNat n) ∧ ¬isCased (Char.ofNat n) := by
    decide +kernel
  simpa using hall c.toNat (toNat_mem_blankNumbers h)

theorem not_nextIsCased_of_isBlank {cs : List Char} (h : isBlank cs) : ¬nextIsCased cs := by
  cases cs with
  | nil => decide
  | cons c cs =>
      obtain ⟨hignorable, hcased⟩ := not_letter_of_isSpace (List.all_eq_true.mp h c List.mem_cons_self)
      simp [nextIsCased, hignorable, hcased]

/-! ## Lower case within a text -/

/-- The lower case of a part between what stands before it, backwards, and what stands after it. -/
def lowerBetween (before after : List Char) : List Char → List Char
  | [] => []
  | c :: cs =>
    (if c == 'Σ' && isFinalSigma before (cs ++ after) then ['ς'] else lowerChar c)
      ++ lowerBetween (c :: before) after cs

theorem lowerFrom_append (before cs after : List Char) : lowerFrom before (cs ++ after) =
    lowerBetween before after cs ++ lowerFrom (cs.reverse ++ before) after := by
  induction cs generalizing before with
  | nil => rfl
  | cons c cs ih =>
      rw [List.cons_append, lowerFrom, ih, lowerBetween, List.append_assoc, List.reverse_cons,
        List.append_assoc, List.singleton_append]

theorem lower_eq_lowerBetween (cs : List Char) : lower cs = lowerBetween [] [] cs := by
  have h := lowerFrom_append [] cs []
  rwa [List.append_nil, lowerFrom, List.append_nil] at h

theorem lower_append_append (front part back : List Char) : lower (front ++ part ++ back) =
    lowerBetween [] (part ++ back) front ++ lowerBetween front.reverse back part
      ++ lowerFrom (part.reverse ++ front.reverse) back := by
  rw [lower, List.append_assoc, lowerFrom_append, lowerFrom_append, List.append_nil,
    List.append_assoc]

/-- The sigmas of a part end words within the text exactly if they do in the part alone. -/
def KeepsSigmas (before after part : List Char) : Prop :=
  ∀ u w, part = u ++ 'Σ' :: w →
    isFinalSigma (u.reverse ++ before) (w ++ after) = isFinalSigma u.reverse w

theorem lowerBetween_eq_iff {before after before' after' cs : List Char} :
    lowerBetween before after cs = lowerBetween before' after' cs ↔
      ∀ u w, cs = u ++ 'Σ' :: w →
        isFinalSigma (u.reverse ++ before) (w ++ after) =
          isFinalSigma (u.reverse ++ before') (w ++ after') := by
  induction cs generalizing before before' with
  | nil => simp [lowerBetween]
  | cons c cs ih =>
      have hrest : (∀ u w, c :: cs = u ++ 'Σ' :: w →
          isFinalSigma (u.reverse ++ before) (w ++ after) =
            isFinalSigma (u.reverse ++ before') (w ++ after')) ↔
          (c = 'Σ' → isFinalSigma before (cs ++ after) = isFinalSigma before' (cs ++ after')) ∧
            lowerBetween (c :: before) after cs = lowerBetween (c :: before') after' cs := by
        rw [ih]
        constructor
        · intro h
          refine ⟨fun hc => h [] cs (by rw [hc]; rfl), fun u w hcs => ?_⟩
          simpa using h (c :: u) w (by rw [hcs]; rfl)
        · rintro ⟨hhead, htail⟩ u w hcs
          cases u with
          | nil =>
              obtain ⟨rfl, rfl⟩ := List.cons.inj hcs
              exact hhead rfl
          | cons d u =>
              obtain ⟨rfl, rfl⟩ := List.cons.inj hcs
              simpa using htail u w rfl
      rw [hrest, lowerBetween, lowerBetween]
      by_cases hc : c = 'Σ'
      · subst hc
        have hlower : lowerChar 'Σ' = ['σ'] := by decide
        cases isFinalSigma before (cs ++ after) <;> cases isFinalSigma before' (cs ++ after') <;>
          simp [hlower]
      · simp [hc]

/-- A part lowers within the text as it does alone exactly if its sigmas end the same words. -/
theorem lowerBetween_eq_lower_iff {before after part : List Char} :
    lowerBetween before after part = lower part ↔ KeepsSigmas before after part := by
  rw [lower_eq_lowerBetween, lowerBetween_eq_iff]
  simp [KeepsSigmas]

theorem KeepsSigmas.of_not_mem {before after part : List Char} (h : 'Σ' ∉ part) :
    KeepsSigmas before after part := by
  rintro u w rfl
  simp at h

/-- No letter is next to the part. -/
theorem KeepsSigmas.of_apart {before after part : List Char} (hbefore : ¬nextIsCased before)
    (hafter : ¬nextIsCased after) : KeepsSigmas before after part :=
  fun u w _ => isFinalSigma_append hbefore hafter u.reverse w

theorem KeepsSigmas.hasPart {front part back : List Char}
    (h : KeepsSigmas front.reverse back part) :
    hasPart (lower part) (lower (front ++ part ++ back)) := by
  rw [lower_append_append, lowerBetween_eq_lower_iff.mpr h, hasPart_iff_isInfix]
  exact List.infix_append _ _ _

theorem hasPart_lower_trim (cs : List Char) : hasPart (lower (trim cs)) (lower cs) := by
  obtain ⟨front, back, hcs, hfront, hback⟩ := exists_eq_append_trim cs
  have hbefore : isBlank front.reverse := by rwa [isBlank, List.all_reverse]
  have h : KeepsSigmas front.reverse back (trim cs) :=
    .of_apart (not_nextIsCased_of_isBlank hbefore) (not_nextIsCased_of_isBlank hback)
  have hpart := h.hasPart
  rwa [← hcs] at hpart

theorem toNat_lt_of_toLower {c : Char} (h : c.toLower.toNat < 128) : c.toNat < 128 := by
  unfold Char.toLower at h
  split at h
  · rename_i hupper
    have hle : c.toNat ≤ 90 := hupper.2
    omega
  · exact h

theorem lowerFrom_of_ascii {cs : List Char} (before : List Char) (h : ∀ c ∈ cs, c.toNat < 128) :
    lowerFrom before cs = cs.map Char.toLower := by
  induction cs generalizing before with
  | nil => rfl
  | cons c cs ih =>
      obtain ⟨hc, hcs⟩ := List.forall_mem_cons.mp h
      have hsigma : (c == 'Σ') = false := by
        rw [beq_eq_false_iff_ne]
        rintro rfl
        exact absurd hc (by decide)
      rw [lowerFrom, ih (c :: before) hcs]
      simp [hsigma, lowerChar, hc]

theorem lowerChar_ne_nil (c : Char) : lowerChar c ≠ [] := by
  unfold lowerChar
  repeat' split
  all_goals simp

theorem lower_ne_nil {cs : List Char} (h : cs ≠ []) : lower cs ≠ [] := by
  cases cs with
  | nil => exact absurd rfl h
  | cons c cs =>
      refine List.append_ne_nil_of_left_ne_nil ?_ _
      split
      · simp
      · exact lowerChar_ne_nil c

end Clipboard.Text
