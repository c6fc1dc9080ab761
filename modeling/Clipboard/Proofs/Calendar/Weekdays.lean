import Clipboard.Proofs.Calendar.DateRange
import Clipboard.Proofs.Calendar.Units

/-!
Phrases for a day of the week. Of seven days next to today the phrase means the only one with its name,
and with a part of the day the hours from the start of the part, on that day, to its end.
-/

namespace Clipboard.Calendar

open Fallible

/-! ## The day that is meant -/

namespace RelativeDay

variable {today a b day : Date} {w : Weekday} {preferPast strictlyPast : Bool}

/-- One of the seven days before today, or of the seven that end with today, or of the seven that begin
with it. -/
def InWeek (today : Date) (preferPast strictlyPast : Bool) (d : Date) : Prop :=
  if strictlyPast then today.dayNumber ≤ d.dayNumber + 7 ∧ d < today
  else if preferPast then today.dayNumber ≤ d.dayNumber + 6 ∧ d ≤ today
  else today ≤ d ∧ d.dayNumber ≤ today.dayNumber + 6

theorem on_weekday_spec (h : (weekday w strictlyPast).on today preferPast = .ok day) :
    day.weekday = w ∧ InWeek today preferPast strictlyPast day := by
  rw [on_eq] at h
  have hnumber := Date.dayNumber_addDays h
  have hindex := today.index_weekday
  have hw : w.index < 7 := by cases w <;> decide
  -- Names of days are remainders of their numbers, so that what is left is arithmetic modulo seven.
  rw [← Weekday.index_inj, day.index_weekday]
  unfold shift at hnumber
  unfold InWeek
  rw [Date.le_iff, Date.le_iff, Date.lt_iff]
  cases strictlyPast with
  | true =>
      simp only [Bool.true_or, Bool.true_and, if_true, beq_iff_eq] at hnumber ⊢
      split at hnumber <;> omega
  | false =>
      cases preferPast with
      | true =>
          simp only [Bool.or_true, Bool.false_and, Bool.false_eq_true, if_true, if_false]
            at hnumber ⊢
          omega
      | false =>
          simp only [Bool.or_false, Bool.false_eq_true, if_false] at hnumber ⊢
          omega

theorem InWeek.eq (ha : InWeek today preferPast strictlyPast a)
    (hb : InWeek today preferPast strictlyPast b) (h : a.weekday = b.weekday) : a = b := by
  rw [← Weekday.index_inj, a.index_weekday, b.index_weekday] at h
  rw [← Date.dayNumber_inj]
  unfold InWeek at ha hb
  rw [Date.le_iff, Date.le_iff, Date.lt_iff] at ha hb
  split at ha
  · rw [if_pos ‹_›] at hb
    omega
  · rw [if_neg ‹_›] at hb
    split at ha
    · rw [if_pos ‹_›] at hb
      omega
    · rw [if_neg ‹_›] at hb
      omega

end RelativeDay

/-! ## Its hours -/

namespace DateRange

/-- The whole day or a part of it; a part that runs past midnight ends on the day after. -/
structure IsOn (day : Date) (part : Option DayPart) (r : DateRange) : Prop where
  first : r.first = day
  startTime : r.startTime = part.map (·.start)
  endTime : r.endTime = part.map (·.stop)
  last : r.last.dayNumber = day.dayNumber + if part.any (·.wraps) then 1 else 0

theorem isOn_ofDay {day : Date} {part : Option DayPart} {r : DateRange}
    (h : ofDay day part = .ok r) : r.IsOn day part := by
  cases part with
  | none =>
      cases h
      rw [days_of_le (Nat.le_refl _)]
      exact ⟨rfl, rfl, rfl, rfl⟩
  | some p =>
      have hmake : make day (some day) ((some p).map (·.start)) ((some p).map (·.stop)) = .ok r := h
      obtain ⟨stop, hlast, rfl⟩ := (make_part_eq_ok_iff (Nat.le_refl day.dayNumber)).mp hmake
      refine ⟨rfl, rfl, rfl, ?_⟩
      split at hlast
      · rw [if_pos ‹_›]
        exact hlast
      · rw [if_neg ‹_›]
        exact congrArg Date.dayNumber hlast

end DateRange

/-! ## The words -/

namespace Weekday

def word : Weekday → String
  | monday => "monday"
  | tuesday => "tuesday"
  | wednesday => "wednesday"
  | thursday => "thursday"
  | friday => "friday"
  | saturday => "saturday"
  | sunday => "sunday"

end Weekday

/-- The words for a part of the day, behind the day itself. -/
inductive DayPart.Words : Option DayPart → List String → Prop
  | whole : Words none []
  | bare (p : DayPart) : Words (some p) [p.name]
  | behindAt (p : DayPart) : Words (some p) ["at", p.name]
  | behindInThe (p : DayPart) : Words (some p) ["in", "the", p.name]

namespace Phrase

variable {part : Option DayPart} {ws : List String}

theorem part?_of_words (h : DayPart.Words part ws) : part? ws = some part := by
  cases h with
  | whole => rfl
  | bare p => cases p <;> decide
  | behindAt p => cases p <;> decide
  | behindInThe p => cases p <;> decide

theorem weekday?_word (w : Weekday) : weekday? w.word = some w := by
  cases w <;> decide +kernel

theorem dayPhrase?_weekday (h : DayPart.Words part ws) (w : Weekday) :
    dayPhrase? (w.word :: ws) = some (.day (.weekday w false) part) := by
  have hpart := part?_of_words h
  have hw := weekday?_word w
  cases w <;> simp only [Weekday.word] at hw <;> simp [dayPhrase?, Weekday.word, hw, hpart]

theorem dayPhrase?_last_weekday (h : DayPart.Words part ws) (w : Weekday) :
    dayPhrase? ("last" :: w.word :: ws) = some (.day (.weekday w true) part) := by
  simp [dayPhrase?, weekday?_word, part?_of_words h]

theorem ofWords?_weekday (h : DayPart.Words part ws) (w : Weekday) (strictlyPast : Bool) :
    ofWords? ((if strictlyPast then ["last", w.word] else [w.word]) ++ ws) =
      some (.day (.weekday w strictlyPast) part) := by
  cases strictlyPast with
  | true =>
      have hday := dayPhrase?_last_weekday h w
      have hnight : w.word ≠ "night" := by cases w <;> decide
      simp [ofWords?, hday, hnight]
  | false =>
      have hday := dayPhrase?_weekday h w
      have hpart : DayPart.ofName? w.word = none := by cases w <;> decide
      have hnight : w.word ≠ "tonight" ∧ w.word ≠ "last" := by cases w <;> decide
      cases h with
      | whole => simp [ofWords?, hpart, hday, hnight.1]
      | bare p => simp [ofWords?, hday, hnight.2]
      | behindAt p => simp [ofWords?, hday]
      | behindInThe p => simp [ofWords?, hday]

end Phrase

namespace Resolver

/-! ## Every day of the week -/

/-- With a week of room on both sides, a phrase for a day of the week means the only day of that name
among the seven, and the range is that day or the part of it that is named. -/
theorem knows_weekday (r : Resolver) (now : Moment) (w : Weekday) (strictlyPast : Bool)
    (hearly : 7 < now.date.dayNumber) (hlate : now.date.dayNumber + 7 ≤ lastDay) :
    ∃ day, (day.weekday = w ∧ RelativeDay.InWeek now.date r.preferPast strictlyPast day) ∧
      (∀ d, d.weekday = w → RelativeDay.InWeek now.date r.preferPast strictlyPast d → d = day) ∧
      ∀ (phrase : String) (part : Option DayPart) (ws : List String), DayPart.Words part ws →
        Phrase.wordsOf phrase.toList =
          (if strictlyPast then ["last", w.word] else [w.word]) ++ ws →
        ∃ range, r.Knows now phrase range ∧ range.IsOn day part := by
  have hnear : (Phrase.day (.weekday w strictlyPast) none).IsNear := trivial
  have hshift := Phrase.shift_near now.date r.preferPast hnear
  obtain ⟨day, hday⟩ : Succeeds ((RelativeDay.weekday w strictlyPast).on now.date r.preferPast) := by
    rw [RelativeDay.on_eq, Date.addDays_succeeds_iff]
    unfold IsDay
    omega
  obtain ⟨hweekday, hweek⟩ := RelativeDay.on_weekday_spec hday
  refine ⟨day, ⟨hweekday, hweek⟩, ?_, ?_⟩
  · intro d hd hin
    exact hin.eq hweek (hd.trans hweekday.symm)
  · intro phrase part ws hpart hwords
    -- A part that runs past midnight needs the day after, which is at most the seventh from today.
    have hnumber := Date.dayNumber_addDays (RelativeDay.on_eq _ _ _ ▸ hday)
    obtain ⟨range, hrange⟩ := (DateRange.ofDay_succeeds_iff day part).mpr fun n hn => by
      have hnext := DayPart.eq_of_mem_nextDays hn
      unfold IsDay
      omega
    have hon : (Phrase.day (.weekday w strictlyPast) part).on now.date r.preferPast = .ok range :=
      bind_eq_ok_iff.mpr ⟨day, hday, hrange⟩
    exact ⟨range, knows_of_on (hwords ▸ Phrase.ofWords?_weekday hpart w strictlyPast) hon,
      DateRange.isOn_ofDay hrange⟩

/-- On a Thursday the last one is a week ago, and its night ends on the Friday after. -/
theorem knows_weekday_thursday :
    let now : Moment := ⟨⟨2024, 5, 2, by decide, by decide, by decide⟩, .ofHour 10⟩
    let thursday : Date := ⟨2024, 4, 25, by decide, by decide, by decide⟩
    let friday : Date := ⟨2024, 4, 26, by decide, by decide, by decide⟩
    ({} : Resolver).Knows now "Last Thursday in the night"
      ⟨thursday, friday, some (.ofHour 22), some (.ofHour 4)⟩ := by
  intro now thursday friday
  obtain ⟨day, -, hunique, hknows⟩ :=
    knows_weekday {} now .thursday true (by decide +kernel) (by decide +kernel)
  obtain rfl : thursday = day :=
    hunique thursday (by decide +kernel) ⟨by decide +kernel, by decide +kernel⟩
  obtain ⟨⟨first, last, startTime, endTime⟩, hrange, hfirst, hstart, hend, hlast⟩ :=
    hknows "Last Thursday in the night" (some .night) ["in", "the", "night"] (.behindInThe .night)
      (by decide +kernel)
  obtain rfl : first = thursday := hfirst
  obtain rfl : last = friday := Date.dayNumber_inj.mp (hlast.trans (by decide +kernel))
  obtain rfl : startTime = some (.ofHour 22) := hstart
  obtain rfl : endTime = some (.ofHour 4) := hend
  exact hrange

end Resolver

end Clipboard.Calendar
