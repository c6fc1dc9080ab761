import Clipboard.Proofs.Pattern.Padding

/-!
Patterns that overlook the blanks around a text: they are found in the text with the blanks exactly if they are
found in the text alone. Most patterns show by their form that they do.
-/

namespace Clipboard.Pattern

open Text (isSpace isBlank isWord)

/-! ## Where a pattern is found -/

section

variable {a b : Pattern} {before : Option Char}

theorem isSome_searchFrom_cons (c : Char) (cs : List Char) : (a.searchFrom before (c :: cs)).isSome =
    ((a.match? ⟨before, c :: cs, []⟩).isSome || (a.searchFrom (some c) cs).isSome) := by
  rw [searchFrom]
  cases a.match? ⟨before, c :: cs, []⟩ <;> rfl

theorem isSome_searchFrom_congr (h : ∀ k, (a.match? k).isSome = (b.match? k).isSome) (cs : List Char) :
    (a.searchFrom before cs).isSome = (b.searchFrom before cs).isSome := by
  induction cs generalizing before with
  | nil => rw [searchFrom, searchFrom, Option.isSome_map, Option.isSome_map, h]
  | cons c cs ih => rw [isSome_searchFrom_cons, isSome_searchFrom_cons, h, ih]

theorem isSome_searchFrom_alt (cs : List Char) : ((alt a b).searchFrom before cs).isSome =
    ((a.searchFrom before cs).isSome || (b.searchFrom before cs).isSome) := by
  have halt (k : Cursor) : ((alt a b).match? k).isSome = ((a.match? k).isSome || (b.match? k).isSome) := by
    rw [match?, run, Option.orElse_eq_orElse, Option.orElse_eq_or, Option.isSome_or]
    rfl
  induction cs generalizing before with
  | nil => simp only [searchFrom, Option.isSome_map, halt]
  | cons c cs ih =>
      simp only [isSome_searchFrom_cons, halt, ih, Bool.or_assoc, Bool.or_left_comm]

theorem found_alt (cs : List Char) : (alt a b).found cs = (a.found cs || b.found cs) := isSome_searchFrom_alt cs

/-- Whether there is a match does not depend on how the last part passes, only on where it does. -/
theorem isSome_match?_append_congr (h : ∀ k, (∃ l, a.Passes k l) ↔ ∃ l, b.Passes k l) (x : Pattern) (k : Cursor) :
    ((x ++ a).match? k).isSome = ((x ++ b).match? k).isSome := by
  rw [Bool.eq_iff_iff, isSome_match?_iff, isSome_match?_iff]
  constructor
  · rintro ⟨l, m, hm, hl⟩
    obtain ⟨l', hl'⟩ := (h m).mp ⟨l, hl⟩
    exact ⟨l', m, hm, hl'⟩
  · rintro ⟨l, m, hm, hl⟩
    obtain ⟨l', hl'⟩ := (h m).mpr ⟨l, hl⟩
    exact ⟨l', m, hm, hl'⟩

end

/-! ## Conditions of the forms -/

section

variable {kind : (Option Char → List Char → Bool) → Prop} {a b : Pattern} {p : Char → Bool}

@[simp] theorem heres_one : (one p).Heres kind := trivial

@[simp] theorem heres_many : (many p).Heres kind := trivial

@[simp] theorem heres_fewest : (fewest p).Heres kind := trivial

@[simp] theorem heres_star : (star a).Heres kind ↔ a.Heres kind := Iff.rfl

@[simp] theorem heres_hold : (hold a).Heres kind ↔ a.Heres kind := Iff.rfl

@[simp] theorem heres_append : (a ++ b).Heres kind ↔ a.Heres kind ∧ b.Heres kind := Iff.rfl

theorem heres_word (same : Char → Char → Bool) (word : List Char) :
    (word.foldr (fun c a => seq (one (same c)) a) empty).Heres kind := by
  induction word with
  | nil => trivial
  | cons c word ih => exact ⟨trivial, ih⟩

@[simp] theorem heres_exactly (s : String) : (exactly s).Heres kind := heres_word (fun c d => d == c) s.toList

@[simp] theorem heres_anyCase (s : String) : (anyCase s).Heres kind := heres_word sameLetter s.toList

@[simp] theorem heres_optional : (optional a).Heres kind ↔ a.Heres kind := and_iff_left trivial

@[simp] theorem heres_someOf : (someOf p).Heres kind := ⟨trivial, trivial⟩

@[simp] theorem heres_spaces : spaces.Heres kind := trivial

@[simp] theorem heres_someSpaces : someSpaces.Heres kind := heres_someOf

@[simp] theorem heres_wordChars : wordChars.Heres kind := heres_someOf

@[simp] theorem oneOf_singleton (a : Pattern) : oneOf [a] = a := rfl

@[simp] theorem heres_oneOf_cons {as : List Pattern} :
    (oneOf (a :: b :: as)).Heres kind ↔ a.Heres kind ∧ (oneOf (b :: as)).Heres kind := Iff.rfl

@[simp] theorem heres_anyCaseOf {s : String} {ss : List String} : (anyCaseOf (s :: ss)).Heres kind := by
  induction ss generalizing s with
  | nil => exact heres_anyCase s
  | cons s' ss ih => exact ⟨heres_anyCase s, ih⟩

@[simp] theorem heres_upTo {n : Nat} (h : a.Heres kind) : (upTo a n).Heres kind := by
  induction n with
  | zero => trivial
  | succ n ih => exact ⟨⟨h, ih⟩, trivial⟩

@[simp] theorem heres_counted {m n : Nat} : (counted p m n).Heres kind := by
  induction m with
  | zero => exact heres_upTo trivial
  | succ m ih => exact ⟨trivial, ih⟩

theorem not_isWord_of_isSpace {c : Char} (h : isSpace c) : ¬isWord c := by
  have hsolid : isSolid isWord := by decide +kernel
  exact fun hw => not_isSpace_of_isSolid hsolid hw h

theorem head?_append_of_isBlank {p : Char → Bool} (hp : ∀ c, isSpace c → ¬p c) (rest : List Char)
    {back : List Char} (hback : isBlank back) : (rest ++ back).head?.any p = rest.head?.any p := by
  cases rest with
  | cons c rest => rfl
  | nil =>
      cases back with
      | nil => rfl
      | cons c back => simpa using hp c (List.all_eq_true.mp hback c List.mem_cons_self)

@[simp] theorem heres_wordEdge_front : wordEdge.Heres IgnoresFront := by
  intro c rest hc
  simp [not_isWord_of_isSpace hc]

@[simp] theorem heres_wordEdge_back : wordEdge.Heres IgnoresBack := by
  intro before rest back hback
  exact congrArg _ (head?_append_of_isBlank (fun _ => not_isWord_of_isSpace) rest hback)

@[simp] theorem heres_lineStart_back : lineStart.Heres IgnoresBack := fun _ _ _ _ => rfl

@[simp] theorem heres_textStart_back : textStart.Heres IgnoresBack := fun _ _ _ _ => rfl

@[simp] theorem heres_notBefore_front (s : String) : (notBefore s).Heres IgnoresFront := fun _ _ _ => rfl

@[simp] theorem heres_notBefore_back {s : String} (h : ∀ c ∈ s.toList, ¬isSpace c) :
    (notBefore s).Heres IgnoresBack := by
  intro before rest back hback
  refine congrArg not ?_
  rw [Bool.eq_iff_iff, List.isPrefixOf_iff_prefix, List.isPrefixOf_iff_prefix]
  exact ⟨Text.prefix_of_no_space rest h hback, fun hpre => hpre.trans (List.prefix_append rest back)⟩

end

/-! ## Ends of lines -/

/-- Only blanks are left on the line. -/
def atLineEnd : Pattern := here fun _ rest => (rest.dropWhile isSpace).isEmpty || (rest.takeWhile isSpace).contains '\n'

@[simp] theorem heres_atLineEnd_front : atLineEnd.Heres IgnoresFront := fun _ _ _ => rfl

@[simp] theorem heres_atLineEnd_back : atLineEnd.Heres IgnoresBack := by
  intro before rest back hback
  dsimp only
  rw [List.dropWhile_append, List.takeWhile_append]
  cases hrest : rest.dropWhile isSpace with
  | nil => simp [List.dropWhile_eq_nil_iff.mpr (List.all_eq_true.mp hback)]
  | cons c cs =>
      have hlength : (rest.takeWhile isSpace).length ≠ rest.length := by
        intro hlength
        have hsum := congrArg List.length (List.takeWhile_append_dropWhile (p := isSpace) (l := rest))
        rw [hrest, List.length_append, List.length_cons] at hsum
        omega
      rw [if_neg hlength]
      rfl

theorem passes_toLineEnd (k : Cursor) : (∃ l, (spaces ++ lineEnd).Passes k l) ↔ ∃ l, atLineEnd.Passes k l := by
  constructor
  · rintro ⟨l, m, hm, hend, rfl⟩
    obtain ⟨taken, hrest, htaken⟩ := exists_of_passes_many hm
    refine ⟨k, ?_, rfl⟩
    dsimp only
    rw [hrest, List.dropWhile_append_of_pos htaken, List.takeWhile_append_of_pos htaken]
    cases hl : l.rest with
    | nil => rfl
    | cons c rest =>
        simp only [hl, List.head?_cons, Option.all_some, beq_iff_eq] at hend
        subst hend
        have hbreak : isSpace '\n' := by decide
        simp [hbreak]
  · rintro ⟨l, hend, rfl⟩
    rcases Bool.or_eq_true_iff.mp hend with hempty | hfeed
    · have hall := List.dropWhile_eq_nil_iff.mp (List.isEmpty_iff.mp hempty)
      obtain ⟨m, hm, hrest⟩ := exists_passes_many (k := l) (List.append_nil _).symm hall
      exact ⟨m, m, hm, by rw [hrest]; rfl, rfl⟩
    · obtain ⟨u, v, huv⟩ := List.append_of_mem (List.contains_iff_mem.mp hfeed)
      have hu : ∀ c ∈ u, isSpace c := fun c hc => List.mem_takeWhile_imp (huv ▸ List.mem_append_left _ hc)
      have hl : l.rest = u ++ '\n' :: (v ++ l.rest.dropWhile isSpace) := by
        rw [← List.cons_append, ← List.append_assoc, ← huv, List.takeWhile_append_dropWhile]
      obtain ⟨m, hm, hrest⟩ := exists_passes_many hl hu
      exact ⟨m, m, hm, by rw [hrest]; rfl, rfl⟩

/-! ## Overlooking blanks -/

theorem found_padded {a : Pattern} (hleaves : a.leaves) (ha : a.Heres IgnoresBack) {back : List Char}
    (hback : isBlank back) (cs : List Char) : a.found (cs ++ back) = a.found cs := by
  rw [found, search?, searchFrom_padded hleaves ha hback, Option.isSome_map]
  rfl

/-- The first match ends at the same place, with the same text held. -/
theorem map_search?_padded {a : Pattern}
    (hdrop : ∀ cs, (a.search? cs).map Prod.snd = (a.search? (cs.dropWhile isSpace)).map Prod.snd) (hleaves : a.leaves)
    (ha : a.Heres IgnoresBack) {front back : List Char} (hfront : isBlank front) (hback : isBlank back)
    (cs : List Char) :
    (a.search? (front ++ cs ++ back)).map Prod.snd = ((a.search? cs).map Prod.snd).map (padded back) := by
  rw [List.append_assoc, append_of_dropWhile hdrop hfront, search?, searchFrom_padded hleaves ha hback,
    Option.map_map, ← search?, Option.map_map]
  rfl

/-- The pattern is found in a text with blanks around it exactly if it is found in the text alone. -/
structure Overlooks (a : Pattern) : Prop where
  front : ∀ cs, a.found cs = a.found (cs.dropWhile isSpace)
  back : ∀ cs back, isBlank back → a.found (cs ++ back) = a.found cs

namespace Overlooks

variable {a b : Pattern}

theorem found_eq (h : a.Overlooks) {front back : List Char} (hfront : isBlank front) (hback : isBlank back)
    (cs : List Char) : a.found (front ++ cs ++ back) = a.found cs := by
  rw [h.back _ _ hback, append_of_dropWhile h.front hfront]

/-- A pattern whose ways begin and end with no blank. -/
theorem solid (henters : a.enters := by decide +kernel) (hleaves : a.leaves := by decide +kernel)
    (hfront : a.Heres IgnoresFront := by simp) (hback : a.Heres IgnoresBack := by simp) :
    a.Overlooks where
  front cs := by
    have hmap := congrArg Option.isSome (map_search?_dropWhile henters hfront cs)
    rwa [Option.isSome_map, Option.isSome_map] at hmap
  back cs _ h := found_padded hleaves hback h cs

/-- A pattern whose ways begin with the blanks of a line and end with no blank. -/
theorem indented (h : Indented a) (hleaves : a.leaves := by decide +kernel)
    (hback : a.Heres IgnoresBack := by simp) : a.Overlooks where
  front cs := by
    have hmap := congrArg Option.isSome (h.map_search?_dropWhile cs)
    rwa [Option.isSome_map, Option.isSome_map] at hmap
  back cs _ h := found_padded hleaves hback h cs

theorem congr (h : a.Overlooks) (hab : ∀ cs, b.found cs = a.found cs) : b.Overlooks where
  front cs := by rw [hab, hab, h.front]
  back cs back hback := by rw [hab, hab, h.back cs back hback]

theorem append_toLineEnd (h : (a ++ atLineEnd).Overlooks) : (a ++ (spaces ++ lineEnd)).Overlooks :=
  h.congr (isSome_searchFrom_congr (isSome_match?_append_congr passes_toLineEnd a))

/-- Blanks that may follow do not matter. -/
theorem append_spaces (h : a.Overlooks) : (a ++ spaces).Overlooks := by
  refine h.congr fun cs => isSome_searchFrom_congr (fun k => ?_) cs
  rw [Bool.eq_iff_iff, isSome_match?_iff, isSome_match?_iff]
  constructor
  · rintro ⟨l, m, hm, -⟩
    exact ⟨m, hm⟩
  · rintro ⟨l, hl⟩
    obtain ⟨m, hm, -⟩ := exists_passes_many (p := isSpace) (List.nil_append l.rest).symm (List.forall_mem_nil _)
    exact ⟨m, l, hl, hm⟩

theorem alt (ha : a.Overlooks) (hb : b.Overlooks) : (alt a b).Overlooks where
  front cs := by
    rw [found_alt, found_alt, ha.front, hb.front]
  back cs back hback := by
    rw [found_alt, found_alt, ha.back cs back hback, hb.back cs back hback]

end Overlooks

/-! ## Several matches -/

section

variable {a : Pattern} {cs : List Char}

theorem pos_length_matchesFrom_iff {fuel : Nat} {before : Option Char} :
    0 < (a.matchesFrom (fuel + 1) before cs).length ↔ (a.searchFrom before cs).isSome := by
  rw [matchesFrom]
  cases a.searchFrom before cs with
  | none => simp
  | some kl =>
      refine iff_of_true ?_ rfl
      dsimp only
      split
      · exact Nat.succ_pos _
      · split <;> exact Nat.succ_pos _

/-- A pattern that always passes something matches twice if it matches behind its first match. -/
theorem two_le_count_iff (h : a.leaves) : 2 ≤ a.count cs ↔
    ∃ l, (a.search? cs).map Prod.snd = some l ∧ (a.searchFrom l.before l.rest).isSome := by
  rw [count, allMatches, matchesFrom, ← search?]
  cases hsearch : a.search? cs with
  | none => simp
  | some kl =>
      obtain ⟨k, l⟩ := kl
      obtain ⟨hsuffix, hmatch⟩ := searchFrom_spec hsearch
      obtain ⟨taken, c, hmoves, -⟩ := a.closes_spec.2 h (passes_of_match? hmatch)
      have hless : l.rest.length < k.rest.length := by
        rw [hmoves.rest, List.length_append, List.length_append]
        exact Nat.lt_add_of_pos_left (Nat.succ_pos _)
      obtain ⟨fuel, hfuel⟩ := Nat.exists_eq_add_one_of_ne_zero
        (Nat.ne_of_gt (Nat.lt_of_lt_of_le (Nat.zero_lt_of_lt hless) hsuffix.length_le))
      have hsecond : 0 < (a.matchesFrom (fuel + 1) l.before l.rest).length ↔ _ := pos_length_matchesFrom_iff
      simpa [hless, hfuel, Nat.succ_le_iff] using hsecond

end

/-! ## Behind at least one blank -/

section

variable {a : Pattern} {before : Option Char} {c : Char} {rest : List Char}

theorem match?_someSpaces (henters : a.enters) (ha : a.Heres IgnoresFront) (hc : isSpace c) :
    (lineStart ++ (someSpaces ++ a)).match? ⟨before, c :: rest, []⟩ =
      if before.all (· == '\n') then a.match? ⟨none, rest.dropWhile isSpace, []⟩ else none := by
  have hspaces : (someSpaces ++ a).match? ⟨before, c :: rest, []⟩ =
      spaces.run ⟨some c, rest, []⟩ fun l => a.run l some := if_pos hc
  refine ite_congr rfl (fun _ => hspaces.trans ?_) fun _ => rfl
  rw [run_spaces henters]
  exact match?_behindBlanks henters ha (by simpa using hc)

theorem match?_someSpaces_eq_none (henters : a.enters) (ha : a.Heres IgnoresFront)
    (hnone : a.match? ⟨none, rest.dropWhile isSpace, []⟩ = none) :
    (lineStart ++ (someSpaces ++ a)).match? ⟨before, rest, []⟩ = none := by
  cases rest with
  | nil => exact ite_self _
  | cons c rest =>
      by_cases hc : isSpace c
      · rw [List.dropWhile_cons_of_pos hc] at hnone
        rw [match?_someSpaces henters ha hc, hnone, ite_self]
      · have hspaces : (someSpaces ++ a).match? ⟨before, c :: rest, []⟩ = none := if_neg hc
        exact ite_eq_right_iff.mpr fun _ => hspaces

theorem found_of_match?_start {a : Pattern} {cs : List Char} {l : Cursor} (h : a.match? (.start cs) = some l) :
    a.found cs := by
  rw [found, search?, searchFrom_of_match? h]
  rfl

theorem found_someSpaces_append_of_none (henters : a.enters) (ha : a.Heres IgnoresFront) {front cs : List Char}
    (hfront : isBlank front) (hnone : a.match? ⟨none, cs.dropWhile isSpace, []⟩ = none) :
    (lineStart ++ (someSpaces ++ a)).found (front ++ cs) = (lineStart ++ (someSpaces ++ a)).found cs := by
  have hskip : (lineStart ++ (someSpaces ++ a)).search? (front ++ cs) =
      (lineStart ++ (someSpaces ++ a)).searchFrom (front.getLast?.or none) cs := by
    refine searchFrom_append fun u c w hu => match?_someSpaces_eq_none henters ha ?_
    have hw : ∀ d ∈ c :: w, isSpace d := fun d hd =>
      List.all_eq_true.mp hfront d (hu ▸ List.mem_append_right u hd)
    rwa [← List.cons_append, List.dropWhile_append_of_pos hw]
  rw [found, found, hskip, search?, searchFrom_of_match?_eq_none
    (match?_someSpaces_eq_none henters ha hnone) (match?_someSpaces_eq_none henters ha hnone)]

theorem found_someSpaces_of_match? (henters : a.enters) (ha : a.Heres IgnoresFront) (hc : isSpace c) {l : Cursor}
    (hmatch : a.match? ⟨none, rest.dropWhile isSpace, []⟩ = some l) :
    (lineStart ++ (someSpaces ++ a)).found (c :: rest) :=
  found_of_match?_start ((match?_someSpaces henters ha hc).trans hmatch)

/-- A pattern that begins with no blank matches at the start of a text only if the text does so too. -/
theorem starts_eq (henters : a.enters) (cs : List Char) : a.starts cs =
    (!cs.head?.any isSpace && (a.match? ⟨none, cs.dropWhile isSpace, []⟩).isSome) := by
  cases cs with
  | nil => rfl
  | cons c cs =>
      by_cases hc : isSpace c
      · have hstarts : a.starts (c :: cs) = false := congrArg Option.isSome (match?_eq_none_of_blank henters hc)
        simp [hstarts, hc]
      · rw [List.dropWhile_cons_of_neg hc, List.head?_cons, Option.any_some, eq_false_of_ne_true hc]
        rfl

/-- Behind blanks the pattern matches also in front of a text that has none at its start. -/
theorem found_someSpaces_append (henters : a.enters) (ha : a.Heres IgnoresFront) {front : List Char}
    (hfront : isBlank front) (cs : List Char) : (lineStart ++ (someSpaces ++ a)).found (front ++ cs) =
      ((lineStart ++ (someSpaces ++ a)).found cs || (!front.isEmpty && a.starts cs)) := by
  cases front with
  | nil => simp
  | cons c front =>
      rw [starts_eq henters]
      cases hmatch : a.match? ⟨none, cs.dropWhile isSpace, []⟩ with
      | none =>
          rw [found_someSpaces_append_of_none henters ha hfront hmatch]
          simp
      | some l =>
          have hc : isSpace c := List.all_eq_true.mp hfront c List.mem_cons_self
          have hdrop : (front ++ cs).dropWhile isSpace = cs.dropWhile isSpace :=
            List.dropWhile_append_of_pos fun d hd => List.all_eq_true.mp hfront d (List.mem_cons_of_mem c hd)
          have hpadded := found_someSpaces_of_match? henters ha hc (hdrop ▸ hmatch)
          rw [List.cons_append, hpadded]
          cases cs with
          | nil => simp
          | cons d ds =>
              by_cases hd : isSpace d
              · -- The text has the blanks itself that the pattern asks for.
                rw [List.dropWhile_cons_of_pos hd] at hmatch
                simp [found_someSpaces_of_match? henters ha hd hmatch]
              · simp [hd]

end

end Clipboard.Pattern
