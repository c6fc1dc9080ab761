import Clipboard.Proofs.Calendar.DateRange

/-!
How far the range of a phrase with several dates goes. It begins with the earliest of the dates and ends
with the latest, in whatever order they stand; a part of the day that runs past midnight takes the end to
the day after the earliest date, even if that is before the latest.
-/

namespace Clipboard.Calendar

open Fallible
open Remote (Found Outside ParserSettings Transcript)

namespace Resolver

variable {o : Outside} {r : Resolver} {now : Moment} {phrase : String} {relaxed : Bool} {t : Transcript}
  {range : DateRange} {k : ParserSettings}

/-- The range that several days and a part of the day come to. -/
structure Spans (days : List Date) (part : Option DayPart) (range : DateRange) : Prop where
  first : IsLeast {d | d ∈ days} range.first
  last : if part.any (·.wraps) then range.last.dayNumber = range.first.dayNumber + 1
    else IsGreatest {d | d ∈ days} range.last

theorem spans_of_rangeOf {part : Option DayPart} {f g : Found} {others : List Found}
    (h : rangeOf o k part f (g :: others) = .ok range) :
    Spans ((f :: g :: others).map (·.2.date)) part range := by
  obtain ⟨hleast, hgreatest⟩ := span_spec f.2.date ((f :: g :: others).map (·.2.date))
  -- The first of the dates stands twice among those that are passed.
  have hdays : {d | d ∈ f.2.date :: (f :: g :: others).map (·.2.date)} =
      {d | d ∈ (f :: g :: others).map (·.2.date)} := by
    ext d
    simp
  rw [hdays] at hleast hgreatest
  obtain ⟨stop, hlast, rfl⟩ := (DateRange.make_part_eq_ok_iff (hleast.2 hgreatest.1)).mp h
  refine ⟨hleast, ?_⟩
  split
  · rwa [if_pos ‹_›] at hlast
  · rw [if_neg ‹_›] at hlast
    exact hlast ▸ hgreatest

/-- The range of a phrase in which the parser finds several dates begins with the earliest of them. It
ends with the latest, or on the day after the earliest if the phrase mentions a part of the day that runs
past midnight. -/
theorem resolve_spans {label : String}
    (h : ((r.resolve o now phrase relaxed).run t).1 = .ok (.found range label .parser))
    (hmany : 2 ≤ (datesFound o (r.parserSettings now) (Phrase.wordsOf phrase.toList)).length) :
    ∃ part, DayPart.mentioned (" ".intercalate (Phrase.wordsOf phrase.toList)).toList = .ok part ∧
      Spans ((datesFound o (r.parserSettings now) (Phrase.wordsOf phrase.toList)).map (·.2.date)) part range := by
  have hparsed : parsed o (r.parserSettings now) (Phrase.wordsOf phrase.toList) = .ok (some range) := by
    rcases resolve_cases h with ⟨hstrategy, -⟩ | ⟨-, hparsed⟩ | ⟨hstrategy, -⟩
    · cases hstrategy
    · exact hparsed
    · cases hstrategy
  obtain ⟨f, others, part, hfound, hpart, hrange⟩ := parsed_eq_ok_some_iff.mp hparsed
  rw [hfound] at hmany ⊢
  cases others with
  | nil => simp at hmany
  | cons g others => exact ⟨part, hpart, spans_of_rangeOf hrange⟩

/-- The parser finds these days in every text. -/
def finding (days : List Date) : Outside where
  reply _ _ := .nothing
  search _ _ := .ok (some (days.map fun d => ("", ⟨d, .midnight⟩)))
  period _ _ := .ok none

theorem resolve_of_parsed (hphrase : Phrase.ofWords? (Phrase.wordsOf phrase.toList) = none)
    (hwords : Phrase.wordsOf phrase.toList ≠ [])
    (h : parsed o (r.parserSettings now) (Phrase.wordsOf phrase.toList) = .ok (some range)) :
    ∃ label, ((r.resolve o now phrase relaxed).run t).1 = .ok (.found range label .parser) := by
  have hempty : (Phrase.wordsOf phrase.toList).isEmpty = false := by simpa using hwords
  unfold resolve
  simp only [hempty, Bool.false_eq_true, if_false, hphrase]
  rw [bind_fst, byParser_fst, h]
  exact ⟨_, rfl⟩

theorem resolve_finding {d e : Date} (part : Option DayPart)
    (hphrase : Phrase.ofWords? (Phrase.wordsOf phrase.toList) = none)
    (hwords : Phrase.wordsOf phrase.toList ≠ [])
    (hpart : DayPart.mentioned (" ".intercalate (Phrase.wordsOf phrase.toList)).toList = .ok part)
    (hrange : rangeOf (finding [d, e]) (r.parserSettings now) part
      ("", ⟨d, .midnight⟩) [("", ⟨e, .midnight⟩)] = .ok range) :
    ∃ label, ((r.resolve (finding [d, e]) now phrase relaxed).run t).1 =
      .ok (.found range label .parser) :=
  resolve_of_parsed hphrase hwords (parsed_eq_ok_some_iff.mpr ⟨_, _, part, rfl, hpart, hrange⟩)

/-- The first of the dates is the later one. -/
theorem resolve_spans_evening :
    let first : Date := ⟨2024, 5, 1, by decide, by decide, by decide⟩
    let last : Date := ⟨2024, 5, 5, by decide, by decide, by decide⟩
    let range : DateRange := ⟨first, last, some (.ofHour 18), some .endOfDay⟩
    (∃ label, ((({} : Resolver).resolve (finding [last, first]) ⟨last, .midnight⟩
      "May 5 to May 1 in the evening").run {}).1 = .ok (.found range label .parser)) ∧
    Spans [last, first] (some .evening) range := by
  intro first last range
  have hpart : DayPart.mentioned (" ".intercalate (Phrase.wordsOf
      "May 5 to May 1 in the evening".toList)).toList = .ok (some .evening) := by decide +kernel
  obtain ⟨label, h⟩ : ∃ label, ((({} : Resolver).resolve (finding [last, first]) ⟨last, .midnight⟩
      "May 5 to May 1 in the evening").run {}).1 = .ok (.found range label .parser) :=
    resolve_finding (some .evening) (by decide +kernel) (by decide +kernel) hpart (by decide +kernel)
  obtain ⟨part, hmentioned, hspans⟩ := resolve_spans h (Nat.le_refl 2)
  rw [hpart] at hmentioned
  cases hmentioned
  exact ⟨⟨label, h⟩, hspans⟩

/-- A night is over on the second of May, and the fifth is lost. -/
theorem resolve_spans_night :
    let first : Date := ⟨2024, 5, 1, by decide, by decide, by decide⟩
    let last : Date := ⟨2024, 5, 5, by decide, by decide, by decide⟩
    let found := datesFound (finding [first, last]) (({} : Resolver).parserSettings ⟨last, .midnight⟩)
      (Phrase.wordsOf "May 1 to May 5 at night".toList)
    ∃ range label, ((({} : Resolver).resolve (finding [first, last]) ⟨last, .midnight⟩
        "May 1 to May 5 at night").run {}).1 = .ok (.found range label .parser) ∧
      2 ≤ found.length ∧ ∃ f ∈ found, range.last < f.2.date := by
  intro first last found
  let night : DateRange := ⟨first, ⟨2024, 5, 2, by decide, by decide, by decide⟩,
    some (.ofHour 22), some (.ofHour 4)⟩
  obtain ⟨label, h⟩ : ∃ label, ((({} : Resolver).resolve (finding [first, last]) ⟨last, .midnight⟩
      "May 1 to May 5 at night").run {}).1 = .ok (.found night label .parser) :=
    resolve_finding (some .night) (by decide +kernel) (by decide +kernel) (by decide +kernel)
      (by decide +kernel)
  have hlast : ("", ⟨last, .midnight⟩) ∈ found := List.mem_cons_of_mem _ List.mem_cons_self
  exact ⟨night, label, h, Nat.le_refl 2, _, hlast, by decide +kernel⟩

end Resolver

end Clipboard.Calendar
