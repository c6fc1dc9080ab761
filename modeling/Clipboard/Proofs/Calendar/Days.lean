import Mathlib.Tactic.SplitIfs
import Clipboard.Calendar.Date
import Clipboard.Proofs.Fallible

/-!
The numbers of the days. The calendar has exactly the days 1 to 3652059, and so many days can be
added to a day exactly if the sum is one of them.
-/

namespace Clipboard.Calendar

open Fallible (Succeeds)

/-! ## Years -/

theorem isLeap_iff {y : Nat} : isLeap y ↔ 4 ∣ y ∧ (¬100 ∣ y ∨ 400 ∣ y) := by
  simp [isLeap, Nat.dvd_iff_mod_eq_zero]

theorem daysBeforeYear_add_centuries (k : Nat) :
    daysBeforeYear (k + 1) + k / 100 = 365 * k + k / 4 + k / 400 := by
  simp only [daysBeforeYear, Nat.add_sub_cancel]
  omega

theorem daysBeforeYear_succ {y : Nat} (h : 1 ≤ y) :
    daysBeforeYear (y + 1) = daysBeforeYear y + 365 + if isLeap y then 1 else 0 := by
  obtain ⟨k, rfl⟩ := Nat.exists_eq_add_of_le' h
  have hk := daysBeforeYear_add_centuries k
  have hsucc := daysBeforeYear_add_centuries (k + 1)
  simp only [Nat.succ_div] at hsucc
  generalize k / 4 = a, k / 100 = b, k / 400 = c at hk hsucc
  simp only [isLeap_iff]
  split_ifs at hsucc ⊢ <;> omega

theorem daysBeforeYear_mono {y z : Nat} (hy : 1 ≤ y) (h : y ≤ z) :
    daysBeforeYear y ≤ daysBeforeYear z := by
  induction h with
  | refl => exact Nat.le_refl _
  | step h ih =>
      rw [Nat.succ_eq_add_one, daysBeforeYear_succ (Nat.le_trans hy h)]
      omega

/-- Four hundred years have 146097 days, and no year begins two days off their average. -/
theorem daysBeforeYear_near (k : Nat) :
    146097 * k ≤ 400 * daysBeforeYear (k + 1) + 700 ∧
      400 * daysBeforeYear (k + 1) ≤ 146097 * k + 400 := by
  have hk := daysBeforeYear_add_centuries k
  omega

/-- The estimate of the year is off by one at most. -/
theorem Date.yearOf_spec {n : Nat} (h : 1 ≤ n) :
    1 ≤ yearOf n ∧ daysBeforeYear (yearOf n) < n ∧ n ≤ daysBeforeYear (yearOf n + 1) := by
  have hq : (n - 1) * 400 / 146097 * 146097 ≤ (n - 1) * 400 ∧
      (n - 1) * 400 < ((n - 1) * 400 / 146097 + 1) * 146097 := by omega
  unfold yearOf
  generalize (n - 1) * 400 / 146097 = q at hq ⊢
  dsimp only
  split
  · rename_i hle
    cases q with
    | zero =>
        have hfirst : daysBeforeYear (0 + 1) = 0 := rfl
        omega
    | succ q =>
        have hbefore := daysBeforeYear_near q
        simp only [Nat.add_sub_cancel]
        omega
  · split
    · have hafter := daysBeforeYear_near (q + 1 + 1)
      omega
    · omega

/-! ## Months -/

theorem daysBeforeMonth_succ (y : Nat) {m : Nat} (h : 1 ≤ m) :
    daysBeforeMonth y (m + 1) = daysBeforeMonth y m + daysInMonth y m := by
  obtain ⟨k, rfl⟩ := Nat.exists_eq_add_of_le' h
  simp [daysBeforeMonth, List.range_succ]

theorem daysBeforeMonth_mono (y : Nat) {m k : Nat} (hm : 1 ≤ m) (h : m ≤ k) :
    daysBeforeMonth y m ≤ daysBeforeMonth y k := by
  induction h with
  | refl => exact Nat.le_refl _
  | step h ih =>
      rw [Nat.succ_eq_add_one, daysBeforeMonth_succ y (Nat.le_trans hm h)]
      omega

/-- The twelve months fill the year. -/
theorem daysBeforeYear_add_months {y : Nat} (h : 1 ≤ y) :
    daysBeforeYear y + daysBeforeMonth y 13 = daysBeforeYear (y + 1) := by
  rw [daysBeforeYear_succ h]
  cases hleap : isLeap y <;> simp [daysBeforeMonth, List.range_succ, daysInMonth, hleap]

theorem Date.monthAndDay_spec (y fuel m d : Nat) (hfuel : fuel + m = 12) (hm : 1 ≤ m) (hd : 1 ≤ d)
    (h : daysBeforeMonth y m + d ≤ daysBeforeMonth y 13) :
    let r := Date.monthAndDay y fuel m d
    (1 ≤ r.1 ∧ r.1 ≤ 12) ∧ (1 ≤ r.2 ∧ r.2 ≤ daysInMonth y r.1) ∧
      daysBeforeMonth y r.1 + r.2 = daysBeforeMonth y m + d := by
  -- The fuel is the number of months after `m`, so it runs out in December.
  induction fuel generalizing m d with
  | zero =>
      have hdecember : m = 12 := by omega
      subst hdecember
      have hlast : daysBeforeMonth y 13 = daysBeforeMonth y 12 + daysInMonth y 12 :=
        daysBeforeMonth_succ y hm
      have hle : d ≤ daysInMonth y 12 := by omega
      exact ⟨⟨hm, Nat.le_refl _⟩, ⟨hd, hle⟩, rfl⟩
  | succ fuel ih =>
      have hsucc := daysBeforeMonth_succ y hm
      unfold Date.monthAndDay
      split
      · rename_i hle
        exact ⟨⟨hm, by omega⟩, ⟨hd, hle⟩, rfl⟩
      · rename_i hgt
        obtain ⟨hmonth, hday, hsum⟩ := ih (m + 1) (d - daysInMonth y m) (by omega) (by omega)
          (by omega) (by omega)
        exact ⟨hmonth, hday, by omega⟩

/-! ## The days of the calendar -/

theorem Weekday.index_ofIndex (n : Nat) : (ofIndex n).index = n % 7 := by
  have hlt := Nat.mod_lt n (by decide : 7 > 0)
  unfold ofIndex
  generalize n % 7 = k at hlt ⊢
  match k, hlt with
  | 0, _ | 1, _ | 2, _ | 3, _ | 4, _ | 5, _ | 6, _ => rfl

/-- The last day of the year 9999. -/
def lastDay : Int := 3652059

/-- The calendar has a day with this number. -/
def IsDay (n : Int) : Prop := 1 ≤ n ∧ n ≤ lastDay

namespace Date

theorem le_iff {d e : Date} : d ≤ e ↔ d.dayNumber ≤ e.dayNumber := Iff.rfl

theorem lt_iff {d e : Date} : d < e ↔ d.dayNumber < e.dayNumber := Iff.rfl

theorem make_succeeds_iff {y m d : Nat} : Succeeds (make y m d) ↔
    (1 ≤ y ∧ y ≤ 9999) ∧ (1 ≤ m ∧ m ≤ 12) ∧ (1 ≤ d ∧ d ≤ daysInMonth y m) := by
  unfold make
  split_ifs <;> simp [*]

theorem dayNumber_le_year (d : Date) : d.dayNumber ≤ daysBeforeYear (d.year + 1) := by
  have hmonth := daysBeforeMonth_succ d.year d.month_range.1
  have hmonths := daysBeforeMonth_mono d.year (m := d.month + 1) (k := 13) (by omega)
    (Nat.succ_le_succ d.month_range.2)
  have hyear := daysBeforeYear_add_months d.year_range.1
  have hday := d.day_range
  unfold dayNumber
  omega

theorem daysBeforeYear_lt (d : Date) : daysBeforeYear d.year < d.dayNumber := by
  have hday := d.day_range.1
  unfold dayNumber
  omega

/-- The year ends with the last of December. -/
theorem dayNumber_of_december {d : Date} (hmonth : d.month = 12) (hday : d.day = 31) :
    d.dayNumber = daysBeforeYear (d.year + 1) := by
  have hmonths := daysBeforeYear_add_months d.year_range.1
  have hdecember : daysBeforeMonth d.year 13 = daysBeforeMonth d.year 12 + 31 :=
    daysBeforeMonth_succ d.year (by decide)
  rw [dayNumber, hmonth, hday]
  omega

theorem dayNumber_lt_of_year_lt {d e : Date} (h : d.year < e.year) : d.dayNumber < e.dayNumber := by
  have hyear := d.dayNumber_le_year
  have hmono := daysBeforeYear_mono (y := d.year + 1) (z := e.year) (by omega) h
  have hbefore := e.daysBeforeYear_lt
  omega

theorem dayNumber_lt_of_month_lt {d e : Date} (hyear : d.year = e.year) (h : d.month < e.month) :
    d.dayNumber < e.dayNumber := by
  have hsucc := daysBeforeMonth_succ d.year d.month_range.1
  have hmono := daysBeforeMonth_mono d.year (m := d.month + 1) (k := e.month) (by omega) h
  have hday := d.day_range
  have hnext := e.day_range
  unfold dayNumber
  rw [← hyear]
  omega

theorem dayNumber_inj {d e : Date} : d.dayNumber = e.dayNumber ↔ d = e := by
  refine ⟨fun h => ?_, congrArg dayNumber⟩
  have hyear : d.year = e.year := by
    rcases Nat.lt_trichotomy d.year e.year with hlt | heq | hlt
    · exact absurd h (Nat.ne_of_lt (dayNumber_lt_of_year_lt hlt))
    · exact heq
    · exact absurd h.symm (Nat.ne_of_lt (dayNumber_lt_of_year_lt hlt))
  have hmonth : d.month = e.month := by
    rcases Nat.lt_trichotomy d.month e.month with hlt | heq | hlt
    · exact absurd h (Nat.ne_of_lt (dayNumber_lt_of_month_lt hyear hlt))
    · exact heq
    · exact absurd h.symm (Nat.ne_of_lt (dayNumber_lt_of_month_lt hyear.symm hlt))
  have hday : d.day = e.day := by
    unfold dayNumber at h
    rw [hyear, hmonth] at h
    omega
  cases d
  cases e
  simp_all

theorem between_self_iff {d e : Date} : d ≤ e ∧ e ≤ d ↔ e = d := by
  rw [le_iff, le_iff, ← dayNumber_inj]
  omega

theorem isDay (d : Date) : IsDay d.dayNumber := by
  have hyears := daysBeforeYear_mono (y := d.year + 1) (z := 10000) (by omega)
    (Nat.succ_le_succ d.year_range.2)
  have hlast : daysBeforeYear 10000 = 3652059 := by decide
  have hyear := d.dayNumber_le_year
  have hday : 1 ≤ d.dayNumber := Nat.le_trans d.day_range.1 (Nat.le_add_left _ _)
  unfold IsDay lastDay
  omega

theorem yearOf_le_iff {n : Nat} (h : 1 ≤ n) : yearOf n ≤ 9999 ↔ n ≤ 3652059 := by
  obtain ⟨hfirst, hlt, hle⟩ := yearOf_spec h
  have hlast : daysBeforeYear 10000 = 3652059 := by decide
  constructor
  · intro hyear
    have := daysBeforeYear_mono (y := yearOf n + 1) (z := 10000) (by omega) (by omega)
    omega
  · intro hn
    refine Nat.le_of_not_lt fun hbig => ?_
    have := daysBeforeYear_mono (y := 10000) (z := yearOf n) (by decide) (by omega)
    omega

theorem ofDayNumber_of_isDay {n : Int} (h : IsDay n) :
    ∃ d, ofDayNumber n = .ok d ∧ (d.dayNumber : Int) = n := by
  obtain ⟨k, rfl⟩ := Int.eq_ofNat_of_zero_le (Int.le_trans Int.one_nonneg h.1)
  have hk : 1 ≤ k ∧ k ≤ 3652059 := by
    unfold IsDay lastDay at h
    omega
  obtain ⟨hfirst, hlt, hle⟩ := yearOf_spec hk.1
  have hyear : yearOf k ≤ 9999 := (yearOf_le_iff hk.1).mpr hk.2
  have hmonths := daysBeforeYear_add_months hfirst
  have hzero : daysBeforeMonth (yearOf k) 1 = 0 := rfl
  obtain ⟨hmonth, hday, hsum⟩ := monthAndDay_spec (yearOf k) 11 1
    (k - daysBeforeYear (yearOf k)) rfl (Nat.le_refl 1) (by omega) (by omega)
  refine ⟨⟨_, _, _, ⟨hfirst, hyear⟩, hmonth, hday⟩, ?_, ?_⟩
  · have hpos : ¬(k : Int) ≤ 0 := by omega
    simp only [ofDayNumber, hpos, if_false, Int.toNat_natCast, make, hfirst, hyear, hmonth, hday,
      and_self, dite_true]
  · simp only [dayNumber]
    omega

theorem isDay_of_ofDayNumber {n : Int} {d : Date} (h : ofDayNumber n = .ok d) : IsDay n := by
  unfold ofDayNumber at h
  split at h
  · cases h
  · rename_i hpos
    obtain ⟨k, rfl⟩ := Int.eq_ofNat_of_zero_le (Int.le_of_lt (Int.not_le.mp hpos))
    have hk : 1 ≤ k := by omega
    have hyear : yearOf k ≤ 9999 := by
      refine Nat.le_of_not_lt fun hbig => ?_
      have hmake : ∀ m d, make (yearOf k) m d = .error (.year (yearOf k)) := fun m d =>
        dif_neg fun hy => absurd hy.2 (Nat.not_le.mpr hbig)
      simp only [Int.toNat_natCast, hmake, reduceCtorEq] at h
    have := (yearOf_le_iff hk).mp hyear
    unfold IsDay lastDay
    omega

theorem dayNumber_of_ofDayNumber {n : Int} {d : Date} (h : ofDayNumber n = .ok d) :
    (d.dayNumber : Int) = n := by
  obtain ⟨e, he, hnumber⟩ := ofDayNumber_of_isDay (isDay_of_ofDayNumber h)
  rw [h] at he
  cases he
  exact hnumber

theorem addDays_succeeds_iff (d : Date) (n : Int) :
    Succeeds (d.addDays n) ↔ IsDay (d.dayNumber + n) :=
  ⟨fun ⟨_, h⟩ => isDay_of_ofDayNumber h, fun h => (ofDayNumber_of_isDay h).imp fun _ => And.left⟩

theorem dayNumber_addDays {d e : Date} {n : Int} (h : d.addDays n = .ok e) :
    (e.dayNumber : Int) = d.dayNumber + n :=
  dayNumber_of_ofDayNumber h

theorem addDays_eq_ok_iff {d e : Date} {n : Int} :
    d.addDays n = .ok e ↔ (e.dayNumber : Int) = d.dayNumber + n := by
  constructor
  · exact dayNumber_addDays
  · intro h
    obtain ⟨c, hc, hnumber⟩ := ofDayNumber_of_isDay (h ▸ e.isDay)
    have heq : c = e := dayNumber_inj.mp (by omega)
    rw [addDays, hc, heq]

theorem index_weekday (d : Date) : d.weekday.index = (d.dayNumber + 6) % 7 :=
  Weekday.index_ofIndex _

/-- The week of any day begins in the calendar, whose first day is a Monday. -/
theorem weekStart_succeeds (d : Date) : Succeeds d.weekStart := by
  have hday := d.isDay
  refine (d.addDays_succeeds_iff _).mpr ?_
  rw [index_weekday]
  unfold IsDay at *
  omega

/-- There is a year before if and only if there is a day before the year. -/
theorem isDay_before_yearStart_iff (d : Date) :
    IsDay (d.yearStart.dayNumber - 1) ↔ 1 ≤ d.year - 1 := by
  have hstart : d.yearStart.dayNumber = daysBeforeYear d.year + 1 := rfl
  have hday := d.yearStart.isDay
  obtain ⟨k, hk⟩ := Nat.exists_eq_add_of_le' d.year_range.1
  have hnear := daysBeforeYear_add_centuries k
  rw [← hk] at hnear
  unfold IsDay at *
  omega

end Date

end Clipboard.Calendar
