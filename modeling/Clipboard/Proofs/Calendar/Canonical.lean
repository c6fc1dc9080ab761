import Clipboard.Proofs.Calendar.DateRange

/-!
The canonical form of ranges of days, and the moments in such a range. Whatever days and times are given,
a range that is made has this form, and making it again changes nothing. Without times it holds whole
days. Over midnight or on a single day it holds what lies between two moments, its start and its end.
-/

namespace Clipboard.Calendar.DateRange

open Fallible

/-! ## The canonical form -/

/-- Plain times or none, and the days in order. -/
structure IsCanonical (r : DateRange) : Prop extends r.IsPlain where
  first_le_last : r.first ≤ r.last

/-- A start without an offset is enough, since a range with only one offset cannot be made. -/
theorem isCanonical_make {first : Date} {last : Option Date} {startTime endTime : Option Time}
    {r : DateRange} (hstart : ∀ s ∈ startTime, s.offset = none)
    (h : make first last startTime endTime = .ok r) : r.IsCanonical := by
  refine ⟨(isUsual_make h).2 hstart, ?_⟩
  rw [make_eq] at h
  split at h
  · obtain ⟨wraps, stop, -, hlast, rfl⟩ := timed_eq_ok_iff.mp h
    cases wraps with
    | true =>
        rw [if_pos rfl] at hlast
        exact Nat.le_of_lt (Nat.lt_of_succ_le (Nat.le_of_eq hlast.symm))
    | false =>
        rw [if_neg Bool.false_ne_true] at hlast
        exact hlast ▸ ordered_fst_le_snd first (last.getD first)
  · cases h
    exact ordered_fst_le_snd first (last.getD first)

theorem IsCanonical.make_self {r : DateRange} (h : r.IsCanonical) :
    make r.first (some r.last) r.startTime r.endTime = .ok r := by
  rw [make_eq, Option.getD_some, ordered_of_le h.first_le_last]
  obtain ⟨first, last, startTime, endTime⟩ := r
  have hboth : startTime.isSome = endTime.isSome := h.both
  cases startTime with
  | none =>
      cases endTime with
      | none => rfl
      | some e => cases hboth
  | some s =>
      cases endTime with
      | none => cases hboth
      | some e =>
          obtain ⟨wraps, hwraps⟩ := Time.before_succeeds_iff.mpr (h.alike s rfl e rfl).symm
          refine timed_eq_ok_iff.mpr ⟨wraps, last, hwraps, ?_, rfl⟩
          cases wraps with
          | true => exact h.next_day s rfl e rfl hwraps
          | false => rfl

theorem make_comm (a b : Date) (startTime endTime : Option Time) :
    make a (some b) startTime endTime = make b (some a) startTime endTime := by
  rw [make_eq, make_eq, Option.getD_some, Option.getD_some, ordered_comm]

/-! ## Moments in a range -/

/-- Of each moment without an offset the range tells whether it has the property. -/
def Covers (r : DateRange) (p : Moment → Prop) : Prop :=
  ∀ m, m.offset = none → Decides (r.contains m) (p m)

theorem Covers.congr {r : DateRange} {p q : Moment → Prop} (h : r.Covers p)
    (hpq : ∀ m, p m ↔ q m) : r.Covers q :=
  fun m hm => (h m hm).congr (hpq m)

theorem covers_untimed {r : DateRange} (h : r.startTime = none) :
    r.Covers fun m => r.first ≤ m.date ∧ m.date ≤ r.last := by
  intro m hm
  unfold contains bounds
  simp only [h, Moment.midnight_upTo r.first hm, Moment.upTo_endOfDay r.last hm]
  exact decides_decide.and decides_decide

section

variable {r : DateRange} {s e : Time}

/-- On the first day from the start on or on the last day up to the end, where the times run past
midnight; otherwise on one of the days and between the times. -/
theorem covers_timed (hs : r.startTime = some s) (he : r.endTime = some e) (hstart : s.offset = none)
    (hend : e.offset = none) : r.Covers fun m =>
      if e.micros < s.micros then
        m.date = r.first ∧ s.micros ≤ m.time.micros ∨ m.date = r.last ∧ m.time.micros ≤ e.micros
      else
        (r.first ≤ m.date ∧ m.date ≤ r.last) ∧ s.micros ≤ m.time.micros ∧ m.time.micros ≤ e.micros := by
  intro m _
  unfold contains
  simp only [hs, he, Time.before_eq hend hstart, Time.upTo_bare hstart, Time.bare_upTo hend]
  refine Decides.ite (fun _ => ?_) fun _ => (decides_decide.and decides_decide).guarded
  have hlast : Decides (ε := Fault)
      (if m.date = r.last then .ok (decide (m.time.micros ≤ e.micros)) else pure false)
      (m.date = r.last ∧ m.time.micros ≤ e.micros) := decides_decide.guarded
  by_cases hfirst : m.date = r.first
  · rw [if_pos hfirst]
    exact (decides_decide.or hlast).congr (or_congr_left (and_iff_right hfirst).symm)
  · rw [if_neg hfirst]
    exact hlast.congr (or_iff_right fun h => hfirst h.1).symm

/-- No moment is left out at midnight, and none comes in between. -/
theorem IsCanonical.covers_between (h : r.IsCanonical) (hs : r.startTime = some s)
    (he : r.endTime = some e) (hnear : r.isOvernight = .ok true ∨ r.first = r.last) :
    r.Covers fun m => (Moment.mk r.first s).upTo m = .ok true ∧ m.upTo ⟨r.last, e⟩ = .ok true := by
  have hstart : s.offset = none := h.offset_eq_none s hs
  have hend : e.offset = none := h.endTime_offset_eq_none e he
  have hovernight : r.isOvernight = .ok (e.micros < s.micros) := by
    simp only [isOvernight, hs, he, Time.before_eq hend hstart]
  have hnext : e.micros < s.micros → r.last.dayNumber = r.first.dayNumber + 1 := fun hwraps =>
    h.next_day s hs e he (by simp [Time.before_eq hend hstart, hwraps])
  -- Either the last day is the next one, or there is a single day; no day lies in between.
  have hday : e.micros < s.micros ∨ r.first.dayNumber = r.last.dayNumber := by
    rw [hovernight, Except.ok.injEq, decide_eq_true_iff] at hnear
    exact hnear.imp_right (congrArg Date.dayNumber)
  intro m hm
  refine (covers_timed hs he hstart hend m hm).congr ?_
  dsimp only
  rw [Moment.upTo_eq (a := ⟨r.first, s⟩) hstart hm, Moment.upTo_eq (b := ⟨r.last, e⟩) hm hend]
  simp only [Except.ok.injEq, decide_eq_true_iff, Date.le_iff, Date.lt_iff, ← Date.dayNumber_inj]
  split <;> omega

end

/-! ## Every range that is made -/

/-- Every range that is made is in canonical form, making it again or from the days the other way round
gives the same range, and the moments in it are those of whole days or those between two moments. -/
theorem make_canonical {first : Date} {last : Option Date} {startTime endTime : Option Time}
    {r : DateRange} (hstart : ∀ s ∈ startTime, s.offset = none)
    (h : make first last startTime endTime = .ok r) :
    r.IsCanonical ∧
      make r.first (some r.last) r.startTime r.endTime = .ok r ∧
      (∀ d ∈ last, make d (some first) startTime endTime = .ok r) ∧
      (r.hasTimes = false → r.Covers fun m => r.first ≤ m.date ∧ m.date ≤ r.last) ∧
      ∀ s ∈ r.startTime, ∀ e ∈ r.endTime, r.isOvernight = .ok true ∨ r.first = r.last →
        r.Covers fun m => (Moment.mk r.first s).upTo m = .ok true ∧ m.upTo ⟨r.last, e⟩ = .ok true := by
  have hcanonical := isCanonical_make hstart h
  refine ⟨hcanonical, hcanonical.make_self, ?_, ?_, ?_⟩
  · rintro d rfl
    rw [make_comm]
    exact h
  · intro htimes
    have hboth := hcanonical.both
    have hnone : r.startTime.isSome = false := by simpa [hasTimes, ← hboth] using htimes
    exact covers_untimed (by simpa using hnone)
  · exact fun s hs e he hnear => hcanonical.covers_between hs he hnear

/-- A night at the end of February, with the days the wrong way round. -/
theorem make_canonical_night :
    let eve : Date := ⟨2024, 2, 28, by decide, by decide, by decide⟩
    let leapDay : Date := ⟨2024, 2, 29, by decide, by decide, by decide⟩
    let later : Date := ⟨2024, 3, 1, by decide, by decide, by decide⟩
    let night : DateRange := ⟨eve, leapDay, some (.ofHour 22), some (.ofHour 4)⟩
    make later (some eve) (some (.ofHour 22)) (some (.ofHour 4)) = .ok night ∧
      make eve (some later) (some (.ofHour 22)) (some (.ofHour 4)) = .ok night ∧
      night.contains ⟨leapDay, .ofHour 3⟩ = .ok true := by
  intro eve leapDay later night
  have hmake : make later (some eve) (some (.ofHour 22)) (some (.ofHour 4)) = .ok night := by
    decide +kernel
  obtain ⟨-, -, hturned, -, hbetween⟩ := make_canonical (by rintro s ⟨rfl⟩; rfl) hmake
  have hcovers := hbetween (.ofHour 22) rfl (.ofHour 4) rfl (.inl (by decide +kernel))
  exact ⟨hmake, hturned eve rfl,
    (hcovers ⟨leapDay, .ofHour 3⟩ rfl).eq_ok_true ⟨by decide +kernel, by decide +kernel⟩⟩

end Clipboard.Calendar.DateRange
