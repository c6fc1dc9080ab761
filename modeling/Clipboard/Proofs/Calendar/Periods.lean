import Clipboard.Proofs.Calendar.Canonical
import Clipboard.Proofs.Calendar.Units

/-!
The range that a single moment stands for holds exactly the moments of the same hour, week, month, year
or day, so also the moment itself.
-/

namespace Clipboard.Calendar

open Fallible

/-! ## Whole days -/

namespace DateRange

theorem covers_day (d : Date) : (days d d).Covers fun m => m.date = d := by
  rw [days_of_le (Nat.le_refl _)]
  exact (covers_untimed rfl).congr fun m => Date.between_self_iff

theorem covers_unit {u : Span} {first last : Date} (hfirst : u.IsFirst first)
    (hlast : u.IsLast last) (h : u.Same first last) {d : Date} (hd : u.Same first d) :
    (days first last).Covers fun m => u.Same m.date d := by
  rw [days_of_le (hfirst.le h)]
  refine (covers_untimed rfl).congr fun m => ?_
  rw [Span.between_iff_same hfirst hlast h]
  exact ⟨fun hsame => hsame.trans hd, fun hsame => hsame.trans hd.symm⟩

end DateRange

theorem Span.addDays_monday {monday sunday : Date} (hfirst : week.IsFirst monday)
    (hlast : week.IsLast sunday) (h : week.Same monday sunday) : monday.addDays 6 = .ok sunday := by
  rw [isFirst_week_iff] at hfirst
  rw [isLast_week_iff] at hlast
  rw [same_week_iff] at h
  rw [Date.addDays_eq_ok_iff]
  omega

/-! ## Hours -/

theorem Time.between_hour_iff (s t : Time) :
    t.hourStart.micros ≤ s.micros ∧ s.micros ≤ t.hourEnd.micros ↔ s.hour = t.hour := by
  have hrange := s.range
  simp only [micros, hourStart, hourEnd]
  omega

theorem DateRange.covers_hour (m : Moment) : ∃ r,
    make m.date (some m.date) (some m.time.hourStart) (some m.time.hourEnd) = .ok r ∧
      r.Covers fun n => n.date = m.date ∧ n.time.hour = m.time.hour := by
  have hlt : ¬m.time.hourEnd.micros < m.time.hourStart.micros := by
    simp only [Time.micros, Time.hourStart, Time.hourEnd]
    omega
  have hbefore : m.time.hourEnd.before m.time.hourStart = .ok false := by
    rw [Time.before_eq rfl rfl, decide_eq_false hlt]
  refine ⟨⟨m.date, m.date, some m.time.hourStart, some m.time.hourEnd⟩, ?_, ?_⟩
  · rw [make_eq, Option.getD_some, ordered_of_le (Nat.le_refl _)]
    exact timed_eq_ok_iff.mpr ⟨false, m.date, hbefore, rfl, rfl⟩
  · refine (covers_timed rfl rfl rfl rfl).congr fun n => ?_
    rw [if_neg hlt, Time.between_hour_iff]
    exact and_congr_left' Date.between_self_iff

/-! ## Every period -/

namespace Resolver

/-- The moments are in one hour, week, month, year or day. -/
def SamePeriod (period : Option String) (a b : Moment) : Prop :=
  match period with
  | some "time" => a.date = b.date ∧ a.time.hour = b.time.hour
  | some "week" => Span.week.Same a.date b.date
  | some "month" => Span.month.Same a.date b.date
  | some "year" => Span.year.Same a.date b.date
  | _ => a.date = b.date

theorem samePeriod_refl (period : Option String) (m : Moment) : SamePeriod period m m := by
  unfold SamePeriod
  split
  · exact ⟨rfl, rfl⟩
  · exact Span.Same.refl .week m.date
  · exact Span.Same.refl .month m.date
  · exact Span.Same.refl .year m.date
  · rfl

/-- If its week ends in the calendar, the range of a moment holds the moment and all others of the same
hour, week, month or year, or else of the same day, and no others. -/
theorem rangeFor_covers {m : Moment} (hm : m.offset = none) {period : Option String}
    (hweek : period = some "week" → ∃ d, Span.week.IsLast d ∧ Span.week.Same d m.date) :
    ∃ r, rangeFor m period none = .ok r ∧ r.contains m = .ok true ∧
      r.Covers fun n => SamePeriod period n m := by
  have hcovers : ∃ r, rangeFor m period none = .ok r ∧
      r.Covers fun n => SamePeriod period n m := by
    unfold SamePeriod
    split
    · exact DateRange.covers_hour m
    · obtain ⟨monday, hmonday⟩ := m.date.weekStart_succeeds
      obtain ⟨hfirst, hsame⟩ := Date.weekStart_spec hmonday
      obtain ⟨sunday, hlast, hend⟩ := hweek rfl
      have hadd := Span.addDays_monday hfirst hlast (hsame.trans hend.symm)
      exact ⟨_, bind_eq_ok_iff.mpr ⟨monday, hmonday, bind_eq_ok_iff.mpr ⟨sunday, hadd, rfl⟩⟩,
        DateRange.covers_unit hfirst hlast (hsame.trans hend.symm) hsame⟩
    · have hfirst : Span.month.IsFirst m.date.monthStart := rfl
      have hlast : Span.month.IsLast m.date.monthEnd := rfl
      exact ⟨_, rfl, DateRange.covers_unit hfirst hlast ⟨rfl, rfl⟩ ⟨rfl, rfl⟩⟩
    · have hfirst : Span.year.IsFirst m.date.yearStart := ⟨rfl, rfl⟩
      have hlast : Span.year.IsLast m.date.yearEnd := ⟨rfl, rfl⟩
      exact ⟨_, rfl, DateRange.covers_unit hfirst hlast rfl rfl⟩
    · refine ⟨.days m.date m.date, ?_, DateRange.covers_day m.date⟩
      unfold rangeFor
      split <;> simp_all
  obtain ⟨r, hr, hcovers⟩ := hcovers
  exact ⟨r, hr, (hcovers m hm).eq_ok_true (samePeriod_refl period m), hcovers⟩

/-- The week of a leap day runs over the end of February to a Sunday in March. -/
theorem rangeFor_covers_leap_week :
    let moment : Moment := ⟨⟨2024, 2, 29, by decide, by decide, by decide⟩, .endOfDay⟩
    let sunday : Date := ⟨2024, 3, 3, by decide, by decide, by decide⟩
    ∃ r, rangeFor moment (some "week") none = .ok r ∧ r.contains moment = .ok true ∧
      r.contains ⟨sunday, .ofHour 23⟩ = .ok true := by
  intro moment sunday
  have hsunday : Span.week.IsLast sunday ∧ Span.week.Same sunday moment.date :=
    ⟨by decide +kernel, by decide +kernel⟩
  obtain ⟨r, hr, hself, hcovers⟩ :=
    rangeFor_covers (m := moment) rfl fun _ => ⟨sunday, hsunday⟩
  exact ⟨r, hr, hself, (hcovers ⟨sunday, .ofHour 23⟩ rfl).eq_ok_true hsunday.2⟩

end Resolver

end Clipboard.Calendar
