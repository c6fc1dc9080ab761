import Clipboard.Calendar.DateRange
import Clipboard.Proofs.Calendar.Moments

/-!
How ranges of days are made. The days are put in order, and with times the last day is the day after the
first one if the end comes before the start. That day is all that can be missing, besides one offset.
-/

namespace Clipboard.Calendar.DateRange

open Fallible

/-! ## Days in order -/

theorem days_of_le {first last : Date} (h : first ≤ last) :
    days first last = ⟨first, last, none, none⟩ :=
  if_neg (Nat.not_lt.mpr h)

/-- The earlier of two days and the later one. -/
def ordered (a b : Date) : Date × Date := if b < a then (b, a) else (a, b)

theorem ordered_fst_le_snd (a b : Date) : (ordered a b).1 ≤ (ordered a b).2 := by
  unfold ordered
  split
  · rename_i hlt
    exact Nat.le_of_lt hlt
  · rename_i hle
    exact Nat.le_of_not_lt hle

theorem ordered_of_le {a b : Date} (h : a ≤ b) : ordered a b = (a, b) :=
  if_neg (Nat.not_lt.mpr h)

theorem ordered_comm (a b : Date) : ordered a b = ordered b a := by
  rcases Nat.lt_trichotomy a.dayNumber b.dayNumber with hlt | heq | hlt
  · exact (ordered_of_le (Nat.le_of_lt hlt)).trans (if_pos hlt).symm
  · rw [Date.dayNumber_inj.mp heq]
  · exact (if_pos hlt).trans (ordered_of_le (Nat.le_of_lt hlt)).symm

/-! ## Days with times -/

/-- The days with a start and an end, over midnight if the end comes before the start. -/
def timed (first last : Date) (s e : Time) : Except Fault DateRange := do
  let last ← if ← e.before s then first.addDays 1 else pure last
  return ⟨first, last, some s, some e⟩

/-- Days have times as soon as one time is given; midnight or the last moment stands for the other. -/
theorem make_eq (first : Date) (last : Option Date) (startTime endTime : Option Time) :
    make first last startTime endTime =
      let ends := ordered first (last.getD first)
      if startTime.isSome || endTime.isSome then
        timed ends.1 ends.2 (startTime.getD .midnight) (endTime.getD .endOfDay)
      else .ok ⟨ends.1, ends.2, none, none⟩ := by
  unfold make ordered
  dsimp only
  generalize (if last.getD first < first then (last.getD first, first) else
    (first, last.getD first)) = ends
  obtain ⟨lo, hi⟩ := ends
  cases startTime <;> cases endTime <;> rfl

/-- With an end before the start, the last day is the day after the first one, whichever was given. -/
theorem timed_eq_ok_iff {first last : Date} {s e : Time} {r : DateRange} :
    timed first last s e = .ok r ↔ ∃ wraps stop, e.before s = .ok wraps ∧
      (if wraps then stop.dayNumber = first.dayNumber + 1 else stop = last) ∧
      r = ⟨first, stop, some s, some e⟩ := by
  unfold timed
  rw [bind_eq_ok_iff]
  refine exists_congr fun wraps => ?_
  rw [exists_and_left]
  refine and_congr_right fun _ => ?_
  cases wraps with
  | false =>
      simp only [Bool.false_eq_true, if_false, exists_eq_left]
      exact ⟨fun h => (Except.ok.inj h).symm, fun h => congrArg Except.ok h.symm⟩
  | true =>
      simp only [if_true]
      rw [bind_eq_ok_iff]
      refine exists_congr fun stop => ?_
      rw [Date.addDays_eq_ok_iff]
      refine and_congr (by omega) ?_
      exact ⟨fun h => (Except.ok.inj h).symm, fun h => congrArg Except.ok h.symm⟩

/-- The times can be compared, and if the end comes before the start, there is a day after the first
one. -/
structure IsTimeable (first : Date) (s e : Time) : Prop where
  alike : s.offset.isSome = e.offset.isSome
  next_day : e.universal < s.universal → first.dayNumber < lastDay

theorem timed_succeeds_iff (first last : Date) (s e : Time) :
    Succeeds (timed first last s e) ↔ IsTimeable first s e := by
  have hday := first.isDay
  unfold timed Time.before
  by_cases halike : s.offset.isSome = e.offset.isSome
  · simp only [halike, bne_self_eq_false, Bool.false_eq_true, if_false, succeeds_ok_bind,
      decide_eq_true_eq]
    by_cases hwraps : e.universal < s.universal
    · rw [if_pos hwraps]
      refine (succeeds_bind_of_forall fun _ => succeeds_pure _).trans ?_
      rw [first.addDays_succeeds_iff]
      constructor
      · intro h
        exact ⟨halike, fun _ => Int.lt_of_add_one_le h.2⟩
      · intro h
        exact ⟨Int.le_add_one hday.1, h.next_day hwraps⟩
    · rw [if_neg hwraps]
      exact iff_of_true (succeeds_pure _) ⟨halike, fun h => absurd h hwraps⟩
  · rw [if_pos (by simpa using Ne.symm halike)]
    exact iff_of_false (not_succeeds_error _) fun h => halike h.alike

/-- Whole days always make a range, days with times if the earlier day does with the times; the day
begins at midnight and ends at its last moment if one of the times is not given. -/
theorem make_succeeds_iff_isTimeable (first last : Date) (startTime endTime : Option Time) :
    Succeeds (make first (some last) startTime endTime) ↔
      (startTime.isSome ∨ endTime.isSome →
        IsTimeable (if last < first then last else first)
          (startTime.getD .midnight) (endTime.getD .endOfDay)) := by
  have hends : (if last < first then last else first) = (ordered first last).1 := by
    unfold ordered
    split <;> rfl
  rw [hends, make_eq, Option.getD_some]
  by_cases htimes : startTime.isSome ∨ endTime.isSome
  · rw [if_pos (by simpa using htimes), imp_iff_right htimes]
    exact timed_succeeds_iff _ _ _ _
  · rw [if_neg (by simpa using htimes)]
    exact iff_of_true (succeeds_ok _) fun h => absurd h htimes

end Clipboard.Calendar.DateRange
