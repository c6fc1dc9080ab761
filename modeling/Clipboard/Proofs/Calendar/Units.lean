import Clipboard.Calendar.Phrase
import Clipboard.Proofs.Calendar.Days

/-!
Weeks, months and years. The days between the first and the last day of a unit are exactly the days of
that unit, and the day before a first day is a last one.
-/

namespace Clipboard.Calendar

theorem Weekday.index_inj {v w : Weekday} : v.index = w.index ↔ v = w := by
  cases v <;> cases w <;> decide

namespace Span

def name : Span → String
  | week => "week"
  | month => "month"
  | year => "year"

/-- The day begins a unit. -/
def IsFirst : Span → Date → Prop
  | week, d => d.weekday = .monday
  | month, d => d.day = 1
  | year, d => d.month = 1 ∧ d.day = 1

/-- The day ends a unit. -/
def IsLast : Span → Date → Prop
  | week, d => d.weekday = .sunday
  | month, d => d.day = daysInMonth d.year d.month
  | year, d => d.month = 12 ∧ d.day = 31

/-- The days are in one unit; weeks are told by their Mondays. -/
def Same : Span → Date → Date → Prop
  | week, a, b => (a.dayNumber - a.weekday.index : Int) = b.dayNumber - b.weekday.index
  | month, a, b => a.year = b.year ∧ a.month = b.month
  | year, a, b => a.year = b.year

instance (u : Span) (d : Date) : Decidable (u.IsFirst d) :=
  match u with
  | week => inferInstanceAs (Decidable (d.weekday = .monday))
  | month => inferInstanceAs (Decidable (d.day = 1))
  | year => inferInstanceAs (Decidable (d.month = 1 ∧ d.day = 1))

instance (u : Span) (d : Date) : Decidable (u.IsLast d) :=
  match u with
  | week => inferInstanceAs (Decidable (d.weekday = .sunday))
  | month => inferInstanceAs (Decidable (d.day = daysInMonth d.year d.month))
  | year => inferInstanceAs (Decidable (d.month = 12 ∧ d.day = 31))

instance (u : Span) (a b : Date) : Decidable (u.Same a b) :=
  match u with
  | week => inferInstanceAs
      (Decidable ((a.dayNumber - a.weekday.index : Int) = b.dayNumber - b.weekday.index))
  | month => inferInstanceAs (Decidable (a.year = b.year ∧ a.month = b.month))
  | year => inferInstanceAs (Decidable (a.year = b.year))

variable {u : Span} {a b c d first last : Date}

theorem Same.refl (u : Span) (d : Date) : u.Same d d := by
  cases u with
  | week => exact Eq.refl _
  | month => exact ⟨rfl, rfl⟩
  | year => exact Eq.refl _

theorem Same.symm (h : u.Same a b) : u.Same b a := by
  cases u with
  | week => exact Eq.symm h
  | month => exact ⟨h.1.symm, h.2.symm⟩
  | year => exact Eq.symm h

theorem Same.trans (hab : u.Same a b) (hbc : u.Same b c) : u.Same a c := by
  cases u with
  | week => exact Eq.trans hab hbc
  | month => exact ⟨hab.1.trans hbc.1, hab.2.trans hbc.2⟩
  | year => exact Eq.trans hab hbc

/-! ## The days of a unit -/

theorem isFirst_week_iff : week.IsFirst d ↔ (d.dayNumber + 6) % 7 = 0 := by
  rw [← d.index_weekday]
  exact Weekday.index_inj.symm

theorem isLast_week_iff : week.IsLast d ↔ (d.dayNumber + 6) % 7 = 6 := by
  rw [← d.index_weekday]
  exact Weekday.index_inj.symm

theorem same_week_iff : week.Same a b ↔
    (a.dayNumber - (a.dayNumber + 6) % 7 : Int) = b.dayNumber - (b.dayNumber + 6) % 7 := by
  rw [Same, a.index_weekday, b.index_weekday]
  omega

/-- The number of a day in the months of its own year. -/
theorem dayNumber_eq_of_same (h : month.Same a b) :
    a.dayNumber + b.day = b.dayNumber + a.day := by
  unfold Date.dayNumber
  rw [h.1, h.2]
  omega

theorem IsFirst.le (hfirst : u.IsFirst first) (h : u.Same first d) : first ≤ d := by
  cases u with
  | week =>
      rw [isFirst_week_iff] at hfirst
      rw [same_week_iff] at h
      rw [Date.le_iff]
      omega
  | month =>
      have hnumber := dayNumber_eq_of_same h
      have hfirst : first.day = 1 := hfirst
      have hday := d.day_range.1
      rw [Date.le_iff]
      omega
  | year =>
      have hbefore := d.daysBeforeYear_lt
      have hyear : first.year = d.year := h
      rw [Date.le_iff, Date.dayNumber, hfirst.1, hfirst.2, hyear]
      exact hbefore

theorem IsLast.le (hlast : u.IsLast last) (h : u.Same d last) : d ≤ last := by
  cases u with
  | week =>
      rw [isLast_week_iff] at hlast
      rw [same_week_iff] at h
      rw [Date.le_iff]
      omega
  | month =>
      have hnumber := dayNumber_eq_of_same h
      have hlast : last.day = daysInMonth last.year last.month := hlast
      have hday := d.day_range.2
      rw [h.1, h.2] at hday
      rw [Date.le_iff]
      omega
  | year =>
      have hyear : d.year = last.year := h
      rw [Date.le_iff, Date.dayNumber_of_december hlast.1 hlast.2, ← hyear]
      exact d.dayNumber_le_year

theorem IsFirst.eq (ha : u.IsFirst a) (hb : u.IsFirst b) (h : u.Same a b) : a = b :=
  Date.dayNumber_inj.mp (Nat.le_antisymm (ha.le h) (hb.le h.symm))

/-- A unit has no gaps. -/
theorem Same.of_between (h : u.Same a c) (hab : a ≤ b) (hbc : b ≤ c) : u.Same b a := by
  have hyear : a.year = c.year → b.year = a.year := by
    intro heq
    rcases Nat.lt_trichotomy b.year a.year with hlt | heq' | hlt
    · exact absurd hab (Nat.not_le.mpr (Date.dayNumber_lt_of_year_lt hlt))
    · exact heq'
    · exact absurd hbc (Nat.not_le.mpr (Date.dayNumber_lt_of_year_lt (heq ▸ hlt)))
  cases u with
  | week =>
      rw [same_week_iff] at h ⊢
      rw [Date.le_iff] at hab hbc
      omega
  | month =>
      have hsame := hyear h.1
      refine ⟨hsame, ?_⟩
      rcases Nat.lt_trichotomy b.month a.month with hlt | heq | hlt
      · exact absurd hab (Nat.not_le.mpr (Date.dayNumber_lt_of_month_lt hsame hlt))
      · exact heq
      · exact absurd hbc (Nat.not_le.mpr
          (Date.dayNumber_lt_of_month_lt (h.1.symm.trans hsame.symm) (h.2 ▸ hlt)))
  | year => exact hyear h

theorem between_iff_same (hfirst : u.IsFirst first) (hlast : u.IsLast last)
    (h : u.Same first last) : first ≤ d ∧ d ≤ last ↔ u.Same d first :=
  ⟨fun hd => h.of_between hd.1 hd.2, fun hd => ⟨hfirst.le hd.symm, hlast.le (hd.trans h)⟩⟩

/-- The week that holds the second of May 2024, a Thursday. -/
example :
    let monday : Date := ⟨2024, 4, 29, by decide, by decide, by decide⟩
    let sunday : Date := ⟨2024, 5, 5, by decide, by decide, by decide⟩
    week.IsFirst monday ∧ week.IsLast sunday ∧ week.Same monday sunday := by
  decide

/-! ## Units next to each other -/

theorem isLast_month_of_next (h : a.dayNumber + 1 = b.dayNumber) (hb : b.day = 1) :
    a.day = daysInMonth a.year a.month := by
  refine Nat.le_antisymm a.day_range.2 (Nat.le_of_not_lt fun hlt => ?_)
  -- Otherwise the month goes on with `b`.
  have hnext : (⟨a.year, a.month, a.day + 1, a.year_range, a.month_range,
      Nat.le_add_left 1 a.day, hlt⟩ : Date) = b := Date.dayNumber_inj.mp h
  have hpos := a.day_range.1
  have hsucc : a.day + 1 = b.day := congrArg Date.day hnext
  omega

theorem december_of_next (h : a.dayNumber + 1 = b.dayNumber) (hmonth : b.month = 1)
    (hday : a.day = daysInMonth a.year a.month) : a.month = 12 := by
  refine Nat.le_antisymm a.month_range.2 (Nat.le_of_not_lt fun hlt => ?_)
  -- Otherwise the year goes on with `b`.
  have hnext : (⟨a.year, a.month + 1, 1, a.year_range, ⟨Nat.le_add_left 1 a.month, hlt⟩,
      Nat.le_refl 1, Date.one_le_daysInMonth _ _⟩ : Date) = b := by
    refine Date.dayNumber_inj.mp (Eq.trans ?_ h)
    have hmonths := daysBeforeMonth_succ a.year a.month_range.1
    unfold Date.dayNumber
    dsimp only
    omega
  have hpos := a.month_range.1
  have hsucc : a.month + 1 = b.month := congrArg Date.month hnext
  omega

theorem isLast_of_next (h : a.dayNumber + 1 = b.dayNumber) (hb : u.IsFirst b) : u.IsLast a := by
  cases u with
  | week =>
      rw [isFirst_week_iff] at hb
      rw [isLast_week_iff]
      omega
  | month => exact isLast_month_of_next h hb
  | year =>
      have hday := isLast_month_of_next h hb.2
      have hdecember := december_of_next h hb.1 hday
      rw [hdecember] at hday
      exact ⟨hdecember, hday⟩

end Span

theorem Date.weekStart_spec {d monday : Date} (h : d.weekStart = .ok monday) :
    Span.week.IsFirst monday ∧ Span.week.Same monday d := by
  have hnumber := dayNumber_addDays h
  rw [index_weekday] at hnumber
  rw [Span.isFirst_week_iff, Span.same_week_iff]
  omega

end Clipboard.Calendar
