import Clipboard.Proofs.Fallible
import Clipboard.Json.Parser

/-!
How far reading goes. What is left after a value is the end of the text that was read, so that only a
text with more brackets than levels is nested too deep, and only one with more digits than a number
may have holds a number that is too long.
-/

namespace Clipboard.Json

open Decimal (maxDigits readExponent)
open Fallible

def isOpening (c : Char) : Bool := c == '[' || c == '\x7b'

/-- The text has too many brackets for the levels, or too many digits for a number, if the fault is one
of a limit. -/
def Fault.IsWithin (depth : Nat) (cs : List Char) : Fault → Prop
  | tooDeep => depth < cs.countP isOpening
  | longNumber n => maxDigits < n ∧ n ≤ cs.countP Char.isDigit
  | _ => True

/-- What is left is the end of the text, and a fault stays within the limits. -/
def KeepsWithin {α : Type} (depth : Nat) (cs : List Char) : Except Failure (α × List Char) → Prop
  | .ok r => r.2 <:+ cs
  | .error e => e.1.IsWithin depth cs

variable {α β : Type} {depth : Nat} {cs rest : List Char}

theorem Fault.IsWithin.of_suffix {f : Fault} (h : f.IsWithin depth rest) (hrest : rest <:+ cs) :
    f.IsWithin depth cs := by
  cases f with
  | tooDeep => exact Nat.lt_of_lt_of_le h (hrest.sublist.countP_le)
  | longNumber n => exact ⟨h.1, Nat.le_trans h.2 (hrest.sublist.countP_le)⟩
  | _ => trivial

/-- Behind a bracket one level less is left. -/
theorem Fault.IsWithin.of_opening {f : Fault} {c : Char} (h : f.IsWithin depth cs)
    (hc : isOpening c) : f.IsWithin (depth + 1) (c :: cs) := by
  cases f with
  | tooDeep =>
      have hcount : (c :: cs).countP isOpening = cs.countP isOpening + 1 := List.countP_cons_of_pos hc
      change depth + 1 < (c :: cs).countP isOpening
      rw [hcount]
      exact Nat.add_lt_add_right h 1
  | longNumber n => exact ⟨h.1, Nat.le_trans h.2 ((List.sublist_cons_self c cs).countP_le)⟩
  | _ => trivial

namespace KeepsWithin

theorem of_suffix {x : Except Failure (α × List Char)} (h : KeepsWithin depth rest x)
    (hrest : rest <:+ cs) : KeepsWithin depth cs x := by
  cases x with
  | ok r => exact List.IsSuffix.trans h hrest
  | error e => exact Fault.IsWithin.of_suffix h hrest

theorem of_opening {x : Except Failure (α × List Char)} {c : Char} (h : KeepsWithin depth cs x)
    (hc : isOpening c) : KeepsWithin (depth + 1) (c :: cs) x := by
  cases x with
  | ok r => exact List.IsSuffix.trans h (List.suffix_cons c cs)
  | error e => exact Fault.IsWithin.of_opening h hc

theorem bind {x : Except Failure (α × List Char)} {f : α × List Char → Except Failure (β × List Char)}
    (hx : KeepsWithin depth cs x) (hf : ∀ r, r.2 <:+ cs → KeepsWithin depth r.2 (f r)) :
    KeepsWithin depth cs (x >>= f) := by
  cases x with
  | ok r => exact (hf r hx).of_suffix hx
  | error e => exact hx

end KeepsWithin

/-! ## Gaps, texts and numbers -/

theorem skipGaps_suffix (cs : List Char) : skipGaps cs <:+ cs := List.dropWhile_suffix _

theorem readCodePoint_within (cs : List Char) : KeepsWithin depth cs (readCodePoint cs) := by
  unfold readCodePoint
  split
  · trivial
  · split
    · trivial
    · split
      · rename_i more _ hmore
        split
        · trivial
        · split
          · have hdrop : more.drop 4 <:+ cs.drop 4 := by
              rw [hmore]
              exact (List.drop_suffix 4 more).trans ((List.suffix_cons _ _).trans (List.suffix_cons _ _))
            exact hdrop.trans (List.drop_suffix 4 cs)
          · exact List.drop_suffix 4 cs
      · exact List.drop_suffix 4 cs

theorem readPoints_within (opened fuel : Nat) (acc : List Text.CodePoint) (cs : List Char) :
    KeepsWithin depth cs (readPoints opened fuel acc cs) := by
  induction fuel generalizing acc cs with
  | zero => trivial
  | succ fuel ih =>
      unfold readPoints
      split
      · trivial
      · exact List.suffix_cons _ _
      · rename_i rest
        split
        · trivial
        · rename_i digits
          refine KeepsWithin.of_suffix ?_ ((List.suffix_cons 'u' digits).trans (List.suffix_cons _ _))
          exact (readCodePoint_within digits).bind fun r _ => ih _ _
        · rename_i c more _
          split
          · trivial
          · exact (ih _ more).of_suffix ((List.suffix_cons c more).trans (List.suffix_cons _ _))
      · rename_i c rest _ _
        split
        · trivial
        · exact (ih _ rest).of_suffix (List.suffix_cons c rest)

theorem readText_within (cs : List Char) : KeepsWithin depth cs (readText cs) :=
  readPoints_within _ _ _ cs

theorem readFraction_suffix (cs : List Char) : (readFraction cs).2 <:+ cs := by
  unfold readFraction
  split
  · rename_i c rest
    split
    · exact (List.dropWhile_suffix _).trans ((List.suffix_cons c rest).trans (List.suffix_cons _ _))
    · exact List.suffix_rfl
  · exact List.suffix_rfl

theorem readExponent_suffix (cs : List Char) : (readExponent cs).2 <:+ cs := by
  unfold readExponent
  cases cs with
  | nil => exact List.suffix_rfl
  | cons e rest =>
      have hrest := List.suffix_cons e rest
      have hdigits : ∀ ds : List Char, ds.dropWhile Char.isDigit <:+ ds :=
        fun ds => List.dropWhile_suffix _
      dsimp only
      split
      · split
        · rename_i ds
          split
          · exact List.suffix_rfl
          · exact (hdigits ds).trans ((List.suffix_cons _ ds).trans hrest)
        · rename_i ds
          split
          · exact List.suffix_rfl
          · exact (hdigits ds).trans ((List.suffix_cons _ ds).trans hrest)
        · split
          · exact List.suffix_rfl
          · exact (hdigits _).trans hrest
      · exact List.suffix_rfl

theorem readNumber_within {start : List Char} (negative : Bool) (hcs : cs <:+ start) :
    KeepsWithin depth start (readNumber start negative cs) := by
  unfold readNumber
  extract_lets whole
  have hdigits : whole.all Char.isDigit ∧ whole <+: cs := by
    unfold whole
    split
    · exact ⟨by decide, _, rfl⟩
    · exact ⟨List.all_takeWhile, List.takeWhile_prefix _⟩
  have hrest := (readExponent_suffix (readFraction (cs.drop whole.length)).2).trans
    ((readFraction_suffix _).trans ((List.drop_suffix whole.length cs).trans hcs))
  dsimp only
  split
  · trivial
  · split
    · split
      · rename_i hlong
        refine ⟨hlong, ?_⟩
        have hcount := List.countP_eq_length.mpr (List.all_eq_true.mp hdigits.1)
        rw [← hcount]
        exact (hdigits.2.sublist.trans hcs.sublist).countP_le
      · exact hrest
    · exact hrest

/-! ## Values -/

section

variable {value : Reader Json} (h : ∀ cs, KeepsWithin depth cs (value cs))
include h

theorem readItems_within (fuel : Nat) (acc : List Json) (cs : List Char) :
    KeepsWithin depth cs (readItems value fuel acc cs) := by
  induction fuel generalizing acc cs with
  | zero => trivial
  | succ fuel ih =>
      refine (h cs).bind fun r hr => ?_
      have hgaps := skipGaps_suffix r.2
      dsimp only
      split
      · rename_i rest hrest
        rw [hrest] at hgaps
        exact (List.suffix_cons _ rest).trans hgaps
      · rename_i rest hrest
        rw [hrest] at hgaps
        have hmore := (skipGaps_suffix rest).trans ((List.suffix_cons _ rest).trans hgaps)
        exact (ih _ _).of_suffix hmore
      · trivial

theorem readFields_within (fuel : Nat) (acc : List (String × Json)) (cs : List Char) :
    KeepsWithin depth cs (readFields value fuel acc cs) := by
  induction fuel generalizing acc cs with
  | zero => trivial
  | succ fuel ih =>
      unfold readFields
      split
      · rename_i key
        refine KeepsWithin.of_suffix ?_ (List.suffix_cons _ key)
        refine (readText_within key).bind fun r hr => ?_
        have hgaps := skipGaps_suffix r.2
        dsimp only
        split
        · rename_i rest hrest
          rw [hrest] at hgaps
          have hvalue := (skipGaps_suffix rest).trans ((List.suffix_cons _ rest).trans hgaps)
          refine KeepsWithin.of_suffix ?_ hvalue
          refine (h _).bind fun r hr => ?_
          have hgaps := skipGaps_suffix r.2
          split
          · rename_i rest hrest
            rw [hrest] at hgaps
            exact (List.suffix_cons _ rest).trans hgaps
          · rename_i rest hrest
            rw [hrest] at hgaps
            have hmore := (skipGaps_suffix rest).trans ((List.suffix_cons _ rest).trans hgaps)
            exact (ih _ _).of_suffix hmore
          · trivial
        · trivial
      · trivial

end

theorem isSuffix_of_words {cs : List Char} {r : Json × List Char}
    (hr : (words.findSome? fun (word, v) => (after? word cs).map (v, ·)) = some r) :
    r.2 <:+ cs := by
  obtain ⟨⟨word, v⟩, -, hfound⟩ := List.exists_of_findSome?_eq_some hr
  obtain ⟨rest, hrest, rfl⟩ := Option.map_eq_some_iff.mp hfound
  unfold after? at hrest
  split at hrest
  · cases hrest
    exact List.drop_suffix _ cs
  · cases hrest

/-- A list or an object is within the limits if its parts are, with one level less. -/
theorem readValue_within_of {depth : Nat}
    (h : ∀ d, depth = d + 1 → ∀ cs, KeepsWithin d cs (readValue d cs)) (cs : List Char) :
    KeepsWithin depth cs (readValue depth cs) := by
  unfold readValue
  split
  · trivial
  · rename_i rest
    refine KeepsWithin.of_suffix ?_ (List.suffix_cons _ rest)
    exact (readText_within rest).bind fun r _ => List.suffix_rfl
  · rename_i rest
    have hgaps := skipGaps_suffix rest
    split
    · have hopens : 0 < ('[' :: rest).countP isOpening := by simp [isOpening]
      exact hopens
    · rename_i d
      refine KeepsWithin.of_opening ?_ (by decide)
      split
      · rename_i more hmore
        rw [hmore] at hgaps
        exact (List.suffix_cons _ more).trans hgaps
      · refine KeepsWithin.of_suffix ?_ hgaps
        exact (readItems_within (h d rfl) _ _ _).bind fun r _ => List.suffix_rfl
  · rename_i rest
    have hgaps := skipGaps_suffix rest
    split
    · have hopens : 0 < ('\x7b' :: rest).countP isOpening := by simp [isOpening]
      exact hopens
    · rename_i d
      refine KeepsWithin.of_opening ?_ (by decide)
      split
      · rename_i more hmore
        rw [hmore] at hgaps
        exact (List.suffix_cons _ more).trans hgaps
      · refine KeepsWithin.of_suffix ?_ hgaps
        exact (readFields_within (h d rfl) _ _ _).bind fun r _ => List.suffix_rfl
  · rename_i c rest _ _ _
    split
    · rename_i r hr
      exact isSuffix_of_words hr
    · split
      · exact readNumber_within true (List.suffix_cons c rest)
      · exact readNumber_within false List.suffix_rfl

theorem readValue_within (depth : Nat) (cs : List Char) :
    KeepsWithin depth cs (readValue depth cs) := by
  induction depth generalizing cs with
  | zero => exact readValue_within_of (fun d hd => by cases hd) cs
  | succ depth ih =>
      refine readValue_within_of (fun d hd => ?_) cs
      cases hd
      exact ih

theorem parse_within {cs : List Char} {e : Failure} (h : parse cs = .error e) :
    e.1.IsWithin maxDepth cs := by
  unfold parse at h
  split at h
  · cases h
    trivial
  · have hvalue := readValue_within maxDepth (skipGaps cs)
    rcases bind_eq_error_iff.mp h with hread | ⟨r, hr, hrest⟩
    · rw [hread] at hvalue
      exact Fault.IsWithin.of_suffix hvalue (skipGaps_suffix cs)
    · dsimp only at hrest
      split at hrest
      · cases hrest
      · cases hrest
        trivial

end Clipboard.Json
