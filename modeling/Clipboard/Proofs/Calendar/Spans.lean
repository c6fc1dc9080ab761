import Mathlib.Data.Nat.Digits.Defs
import Clipboard.Proofs.Calendar.DateRange
import Clipboard.Proofs.Calendar.Units

/-!
Phrases for weeks, months and years, and for the last so many days. The unit before the current one is a
whole unit that ends on the day before the current one begins, and the current one runs up to today.
-/

namespace Clipboard.Calendar

open Fallible

/-! ## The days that are meant -/

namespace Phrase

variable {today start : Date} {u : Span} (preferPast : Bool)

theorem on_current (today : Date) (u : Span) : ∃ start,
    (current u).on today preferPast = .ok ⟨start, today, none, none⟩ ∧
      u.IsFirst start ∧ u.Same start today := by
  have hdays : ∃ start, (current u).on today preferPast = .ok (.days start today) ∧
      u.IsFirst start ∧ u.Same start today := by
    cases u with
    | week =>
        obtain ⟨monday, hmonday⟩ := today.weekStart_succeeds
        refine ⟨monday, ?_, Date.weekStart_spec hmonday⟩
        simp only [on, hmonday]
        rfl
    | month => exact ⟨today.monthStart, rfl, rfl, rfl, rfl⟩
    | year => exact ⟨today.yearStart, rfl, ⟨rfl, rfl⟩, rfl⟩
  obtain ⟨start, hon, hfirst, hsame⟩ := hdays
  exact ⟨start, by rw [hon, DateRange.days_of_le (hfirst.le hsame)], hfirst, hsame⟩

theorem on_previous_week (hstart : Span.week.IsFirst start) (htoday : Span.week.Same start today)
    (hbefore : IsDay (start.dayNumber - 1)) : ∃ first last,
    (previous .week).on today preferPast = .ok (.days first last) ∧
      Span.week.IsFirst first ∧ Span.week.Same first last ∧
      last.dayNumber + 1 = start.dayNumber := by
  obtain ⟨monday, hmonday⟩ := today.weekStart_succeeds
  obtain ⟨hfirst, hsame⟩ := Date.weekStart_spec hmonday
  obtain rfl : start = monday := hstart.eq hfirst (htoday.trans hsame.symm)
  rw [Span.isFirst_week_iff] at hstart
  -- The calendar begins on a Monday, so before a later Monday there is a whole week.
  have hweek : IsDay (start.dayNumber + -7) := by
    unfold IsDay at *
    omega
  obtain ⟨first, hfirst⟩ := (start.addDays_succeeds_iff (-7)).mpr hweek
  have hfirstNumber := Date.dayNumber_addDays hfirst
  have hsunday : IsDay (first.dayNumber + 6) := by
    unfold IsDay at *
    omega
  obtain ⟨last, hlast⟩ := (first.addDays_succeeds_iff 6).mpr hsunday
  have hlastNumber := Date.dayNumber_addDays hlast
  refine ⟨first, last, ?_, ?_⟩
  · simp only [on, hmonday, bind_eq_ok_iff]
    exact ⟨start, rfl, first, hfirst, last, hlast, rfl⟩
  · rw [Span.isFirst_week_iff, Span.same_week_iff]
    omega

theorem on_previous_month (hstart : Span.month.IsFirst start) (htoday : Span.month.Same start today)
    (hbefore : IsDay (start.dayNumber - 1)) : ∃ first last,
    (previous .month).on today preferPast = .ok (.days first last) ∧
      Span.month.IsFirst first ∧ Span.month.Same first last ∧
      last.dayNumber + 1 = start.dayNumber := by
  obtain rfl : start = today.monthStart := hstart.eq rfl htoday
  rw [Int.sub_eq_add_neg] at hbefore
  obtain ⟨last, hlast⟩ := (today.monthStart.addDays_succeeds_iff (-1)).mpr hbefore
  have hnumber := Date.dayNumber_addDays hlast
  refine ⟨last.monthStart, last, ?_, rfl, ⟨rfl, rfl⟩, by omega⟩
  simp only [on, hlast]
  rfl

theorem on_previous_year (hstart : Span.year.IsFirst start) (htoday : Span.year.Same start today)
    (hbefore : IsDay (start.dayNumber - 1)) : ∃ first last,
    (previous .year).on today preferPast = .ok (.days first last) ∧
      Span.year.IsFirst first ∧ Span.year.Same first last ∧
      last.dayNumber + 1 = start.dayNumber := by
  obtain rfl : start = today.yearStart := hstart.eq ⟨rfl, rfl⟩ htoday
  have hrange := today.year_range
  have hyear : 1 ≤ today.year - 1 ∧ today.year - 1 ≤ 9999 :=
    ⟨today.isDay_before_yearStart_iff.mp hbefore, by omega⟩
  obtain ⟨first, hfirst⟩ : ∃ first : Date,
      first.year = today.year - 1 ∧ first.month = 1 ∧ first.day = 1 :=
    ⟨⟨today.year - 1, 1, 1, hyear, by decide, (by decide : 1 ≤ 1 ∧ 1 ≤ 31)⟩, rfl, rfl, rfl⟩
  obtain ⟨last, hlast⟩ : ∃ last : Date,
      last.year = today.year - 1 ∧ last.month = 12 ∧ last.day = 31 :=
    ⟨⟨today.year - 1, 12, 31, hyear, by decide, (by decide : 1 ≤ 31 ∧ 31 ≤ 31)⟩, rfl, rfl, rfl⟩
  refine ⟨first, last, ?_, hfirst.2, hfirst.1.trans hlast.1.symm, ?_⟩
  · have hmakeFirst := first.make_self
    have hmakeLast := last.make_self
    rw [hfirst.1, hfirst.2.1, hfirst.2.2] at hmakeFirst
    rw [hlast.1, hlast.2.1, hlast.2.2] at hmakeLast
    simp only [on, bind_eq_ok_iff]
    exact ⟨first, hmakeFirst, last, hmakeLast, rfl⟩
  · rw [Date.dayNumber_of_december hlast.2.1 hlast.2.2, hlast.1, Nat.sub_add_cancel hrange.1]
    rfl

/-- If some day lies before the current unit, there is a unit before it. -/
theorem on_previous (hstart : u.IsFirst start) (htoday : u.Same start today)
    (hroom : ∃ d, d < today ∧ ¬u.Same d today) : ∃ first last,
    (previous u).on today preferPast = .ok ⟨first, last, none, none⟩ ∧
      u.IsFirst first ∧ u.IsLast last ∧ u.Same first last ∧
      last.dayNumber + 1 = start.dayNumber := by
  have hbefore : IsDay (start.dayNumber - 1) := by
    -- An earlier day outside the unit cannot lie behind its first day, since a unit has no gaps.
    obtain ⟨d, hd, hother⟩ := hroom
    have hlt : d < start := Nat.lt_of_not_le fun hle =>
      hother ((htoday.of_between hle (Nat.le_of_lt hd)).trans htoday)
    have hday := d.isDay
    have hlast := start.isDay
    rw [Date.lt_iff] at hlt
    unfold IsDay at *
    omega
  have hdays : ∃ first last, (previous u).on today preferPast = .ok (.days first last) ∧
      u.IsFirst first ∧ u.Same first last ∧ last.dayNumber + 1 = start.dayNumber := by
    cases u with
    | week => exact on_previous_week preferPast hstart htoday hbefore
    | month => exact on_previous_month preferPast hstart htoday hbefore
    | year => exact on_previous_year preferPast hstart htoday hbefore
  obtain ⟨first, last, hon, hfirst, hsame, hnext⟩ := hdays
  exact ⟨first, last, by rw [hon, DateRange.days_of_le (hfirst.le hsame)], hfirst,
    Span.isLast_of_next hnext hstart, hsame, hnext⟩

theorem on_lastDays {n : Nat} (h : max n 1 ≤ today.dayNumber) : ∃ first,
    (lastDays n).on today preferPast = .ok ⟨first, today, none, none⟩ ∧
      first.dayNumber + max n 1 = today.dayNumber + 1 := by
  have hday : IsDay (today.dayNumber + (1 - (max n 1 : Nat))) := by
    have htoday := today.isDay
    unfold IsDay at *
    omega
  obtain ⟨first, hfirst⟩ := (today.addDays_succeeds_iff _).mpr hday
  have hnumber := Date.dayNumber_addDays hfirst
  have hle : first ≤ today := by
    rw [Date.le_iff]
    omega
  refine ⟨first, ?_, by omega⟩
  simp only [on, hfirst]
  rw [← DateRange.days_of_le hle]
  rfl

/-! ## The words -/

def backWords : List String := ["last", "past", "previous"]

theorem ofWords?_current (u : Span) : ofWords? ["this", u.name] = some (.current u) := by
  cases u <;> decide

theorem ofWords?_previous (u : Span) :
    ∀ back ∈ backWords, ofWords? [back, u.name] = some (.previous u) := by
  cases u <;> decide

/-- A number is read from its digits. -/
theorem count?_of_digits {s : String} {ds : List Nat}
    (h : s.toList.map Text.digit? = ds.map some) (hne : ds ≠ []) (hlength : ds.length ≤ 3) :
    count? s = some (Nat.ofDigits 10 ds.reverse) := by
  have hs : s.length = ds.length := by
    rw [← String.length_toList, ← List.length_map (f := Text.digit?), h, List.length_map]
  have hvalue : Nat.ofDigits 10 ds.reverse = ds.foldl (fun n d => 10 * n + d) 0 := by
    rw [Nat.ofDigits_eq_foldr, List.foldr_reverse]
    simp [Nat.add_comm]
  unfold count?
  simp [h, hs, hne, hlength, hvalue, List.foldl_map]

theorem count?_of_long {s : String} {ds : List Nat} (h : s.toList.map Text.digit? = ds.map some)
    (hlength : 3 < ds.length) : count? s = none := by
  have hs : s.length = ds.length := by
    rw [← String.length_toList, ← List.length_map (f := Text.digit?), h, List.length_map]
  unfold count?
  simp [hs, Nat.not_le.mpr hlength]

theorem weekday?_of_digits {s : String} {ds : List Nat}
    (h : s.toList.map Text.digit? = ds.map some) : weekday? s = none := by
  have hnames (w : Weekday) : ∃ c ∈ Text.lower w.name.toList, Text.digit? c = none := by
    cases w <;> exact ⟨'a', by decide +kernel, by decide +kernel⟩
  refine List.find?_eq_none.mpr fun w _ heq => ?_
  obtain ⟨c, hc, hnone⟩ := hnames w
  have hs : s.toList = Text.lower w.name.toList := by
    rw [← beq_iff_eq.mp heq, Text.lowerString, String.toList_ofList]
  have hmem : Text.digit? c ∈ ds.map some := h ▸ List.mem_map_of_mem (hs ▸ hc)
  simp [hnone] at hmem

/-- What a number of days behind `last` comes to. A number is no day of the week, so that `last` before
it begins no such phrase. -/
theorem ofWords?_of_digits {s : String} {ds : List Nat}
    (h : s.toList.map Text.digit? = ds.map some) : ∀ back ∈ backWords, ∀ unit ∈ ["day", "days"],
      ofWords? [back, s, unit] = (count? s).map .lastDays := by
  intro back hback unit hunit
  have hday : dayPhrase? [back, s, unit] = none := by
    simp only [backWords, List.mem_cons, List.not_mem_nil, or_false] at hback
    rcases hback with rfl | rfl | rfl
    · simp [dayPhrase?, weekday?_of_digits h]
    · rfl
    · rfl
  have hspan : spanPhrase? [back, s, unit] = (count? s).map .lastDays := by
    have hbacks : ∀ b ∈ backWords, isBack b := by decide
    have hunits : ∀ d ∈ ["day", "days"], (d == "day" || d == "days") = true := by decide
    simp [spanPhrase?, hbacks back hback, hunits unit hunit]
  simp [ofWords?, hday, hspan]

end Phrase

namespace Resolver

/-! ## Every span -/

open Phrase (backWords wordsOf)

/-- The unit before the current one is a whole week, month or year, the day after it begins the current
unit, and that one runs up to today. The last so many days, a number of up to three digits, end today, and
there is at least one. -/
theorem knows_spans (r : Resolver) (now : Moment) :
    (∀ u : Span, (∃ d, d < now.date ∧ ¬u.Same d now.date) → ∃ first last start,
      (∀ phrase : String, ∀ back ∈ backWords, wordsOf phrase.toList = [back, u.name] →
        r.Knows now phrase ⟨first, last, none, none⟩) ∧
      (∀ phrase : String, wordsOf phrase.toList = ["this", u.name] →
        r.Knows now phrase ⟨start, now.date, none, none⟩) ∧
      (u.IsFirst first ∧ u.IsLast last ∧ ∀ d, first ≤ d ∧ d ≤ last ↔ u.Same d first) ∧
      last.dayNumber + 1 = start.dayNumber ∧ u.IsFirst start ∧ u.Same start now.date) ∧
    ∀ (phrase digits : String) (ds : List Nat), ∀ back ∈ backWords, ∀ unit ∈ ["day", "days"],
      wordsOf phrase.toList = [back, digits, unit] →
      digits.toList.map Text.digit? = ds.map some → ds ≠ [] → ds.length ≤ 3 →
      let n := Nat.ofDigits 10 ds.reverse
      max n 1 ≤ now.date.dayNumber → ∃ first,
        r.Knows now phrase ⟨first, now.date, none, none⟩ ∧
          first.dayNumber + max n 1 = now.date.dayNumber + 1 := by
  constructor
  · intro u hroom
    obtain ⟨start, hcurrent, hstart, htoday⟩ := Phrase.on_current r.preferPast now.date u
    obtain ⟨first, last, hprevious, hfirst, hlast, hsame, hnext⟩ :=
      Phrase.on_previous r.preferPast hstart htoday hroom
    refine ⟨first, last, start, ?_, ?_, ⟨hfirst, hlast, ?_⟩, hnext, hstart, htoday⟩
    · intro phrase back hback hwords
      exact knows_of_on (hwords ▸ Phrase.ofWords?_previous u back hback) hprevious
    · intro phrase hwords
      exact knows_of_on (hwords ▸ Phrase.ofWords?_current u) hcurrent
    · exact fun d => Span.between_iff_same hfirst hlast hsame
  · intro phrase digits ds back hback unit hunit hwords hdigits hne hlength n hroom
    obtain ⟨first, hon, hnumber⟩ := Phrase.on_lastDays r.preferPast hroom
    have hphrase : Phrase.ofWords? (Phrase.wordsOf phrase.toList) = some (.lastDays n) := by
      rw [hwords, Phrase.ofWords?_of_digits hdigits back hback unit hunit,
        Phrase.count?_of_digits hdigits hne hlength]
      rfl
    exact ⟨first, knows_of_on hphrase hon, hnumber⟩

/-- At the end of March in a leap year, February has 29 days and the last 31 days began with March. -/
theorem knows_spans_march :
    let march : Date := ⟨2024, 3, 31, by decide, by decide, by decide⟩
    let leapDay : Date := ⟨2024, 2, 29, by decide, by decide, by decide⟩
    let now : Moment := ⟨march, .ofHour 10⟩
    ({} : Resolver).Knows now "Last  month" ⟨leapDay.monthStart, leapDay, none, none⟩ ∧
      ({} : Resolver).Knows now "past 031 days" ⟨march.monthStart, march, none, none⟩ := by
  intro march leapDay now
  obtain ⟨hspans, hlastDays⟩ := knows_spans {} now
  constructor
  · obtain ⟨first, last, start, hknows, -, ⟨hfirst, -, hdays⟩, hnext, hstart, htoday⟩ :=
      hspans .month ⟨leapDay, by decide, by decide⟩
    obtain rfl : start = march.monthStart := hstart.eq rfl htoday
    obtain rfl : last = leapDay := Date.dayNumber_inj.mp (Nat.succ.inj (hnext.trans (by decide)))
    have hsame := (hdays leapDay).mp ⟨((hdays first).mpr ⟨rfl, rfl⟩).2, Nat.le_refl _⟩
    obtain rfl : first = leapDay.monthStart := hfirst.eq rfl hsame.symm
    exact hknows "Last  month" "last" (by decide) (by decide +kernel)
  · obtain ⟨first, hknows, hnumber⟩ := hlastDays "past 031 days" "031" [0, 3, 1] "past" (by decide)
      "days" (by decide) (by decide +kernel) (by decide +kernel) (by decide) (by decide) (by decide)
    obtain rfl : first = march.monthStart :=
      Date.dayNumber_inj.mp (Nat.add_right_cancel (hnumber.trans (by decide)))
    exact hknows

/-- A number of more than three digits is in no phrase of the table. -/
theorem not_knows_of_long {r : Resolver} {now : Moment} {phrase digits back unit : String}
    {ds : List Nat} {range : DateRange} (hback : back ∈ backWords) (hunit : unit ∈ ["day", "days"])
    (hwords : wordsOf phrase.toList = [back, digits, unit])
    (hdigits : digits.toList.map Text.digit? = ds.map some) (hlength : 3 < ds.length) :
    ¬r.Knows now phrase range := by
  intro h
  obtain ⟨p, hphrase, -⟩ := h.exists_phrase
  rw [hwords, Phrase.ofWords?_of_digits hdigits back hback unit hunit,
    Phrase.count?_of_long hdigits hlength] at hphrase
  cases hphrase

/-- The last thousand days lie on the calendar, but the table does not know them. -/
theorem not_knows_thousand :
    let now : Moment := ⟨⟨2024, 5, 2, by decide, by decide, by decide⟩, .ofHour 10⟩
    wordsOf "last 1000 days".toList = ["last", "1000", "days"] ∧
      "1000".toList.map Text.digit? = [1, 0, 0, 0].map some ∧
      Nat.ofDigits 10 [1, 0, 0, 0].reverse = 1000 ∧ max 1000 1 ≤ now.date.dayNumber ∧
      ¬∃ first, ({} : Resolver).Knows now "last 1000 days" ⟨first, now.date, none, none⟩ ∧
        first.dayNumber + max 1000 1 = now.date.dayNumber + 1 := by
  intro now
  have hwords : wordsOf "last 1000 days".toList = ["last", "1000", "days"] := by decide +kernel
  have hdigits : "1000".toList.map Text.digit? = [1, 0, 0, 0].map some := by decide +kernel
  refine ⟨hwords, hdigits, by decide, by decide, ?_⟩
  rintro ⟨first, hknows, -⟩
  exact not_knows_of_long (by decide) (by decide) hwords hdigits (by decide) hknows

end Resolver

end Clipboard.Calendar
