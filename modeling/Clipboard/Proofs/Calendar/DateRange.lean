import Clipboard.Proofs.Calendar.Resolver

/-!
The usual form of ranges of days, which all ways of making them give, and when a moment can be
compared with such a range. Only a model can put an offset on the times of a range.
-/

namespace Clipboard.Calendar

open Fallible
open Remote (DateGuess DateGuesser Found Outside ParserSettings Transcript)

namespace DateRange

/-! ## The usual form -/

/-- Both times or none, alike in having an offset; the last day is the day after the first one if the
times run past midnight. -/
structure IsUsual (r : DateRange) : Prop where
  both : r.startTime.isSome = r.endTime.isSome
  alike : ∀ s ∈ r.startTime, ∀ e ∈ r.endTime, s.offset.isSome = e.offset.isSome
  next_day : ∀ s ∈ r.startTime, ∀ e ∈ r.endTime, e.before s = .ok true →
    r.last.dayNumber = r.first.dayNumber + 1

/-- The times have no offset. -/
structure IsPlain (r : DateRange) : Prop extends r.IsUsual where
  offset_eq_none : ∀ s ∈ r.startTime, s.offset = none

theorem IsPlain.endTime_offset_eq_none {r : DateRange} (h : r.IsPlain) :
    ∀ e ∈ r.endTime, e.offset = none := by
  intro e he
  obtain ⟨s, hs⟩ := Option.isSome_iff_exists.mp (h.both ▸ Option.isSome_of_mem he)
  have halike := h.alike s hs e he
  rw [h.offset_eq_none s hs] at halike
  simpa using halike.symm

theorem isPlain_of_untimed {first last : Date} : IsPlain ⟨first, last, none, none⟩ where
  both := rfl
  alike := by simp
  next_day := by simp
  offset_eq_none := by simp

theorem isPlain_days (first last : Date) : (days first last).IsPlain := by
  unfold days
  split <;> exact isPlain_of_untimed

theorem isPlain_of_eq {first last : Date} {r : DateRange}
    (h : (.ok (days first last) : Except Fault DateRange) = .ok r) : r.IsPlain :=
  Except.ok.inj h ▸ isPlain_days first last

theorem isUsual_timed {first last : Date} {s e : Time} {r : DateRange}
    (h : timed first last s e = .ok r) : r.IsUsual ∧ r.startTime = some s := by
  obtain ⟨wraps, stop, hwraps, hlast, rfl⟩ := timed_eq_ok_iff.mp h
  have halike := (Time.before_succeeds_iff.mp ⟨wraps, hwraps⟩).symm
  refine ⟨⟨rfl, by simpa using halike, ?_⟩, rfl⟩
  simp only [Option.mem_some_iff, forall_eq']
  intro hovernight
  rw [hwraps] at hovernight
  rwa [Except.ok.inj hovernight, if_pos rfl] at hlast

/-- Whatever days and times are given, the range has the usual form. -/
theorem isUsual_make {first : Date} {last : Option Date} {startTime endTime : Option Time}
    {r : DateRange} (h : make first last startTime endTime = .ok r) :
    r.IsUsual ∧ ((∀ s ∈ startTime, s.offset = none) → r.IsPlain) := by
  rw [make_eq] at h
  split at h
  · obtain ⟨husual, hstart⟩ := isUsual_timed h
    refine ⟨husual, fun hnone => ⟨husual, ?_⟩⟩
    cases startTime with
    | none => simp [hstart, Time.midnight]
    | some s => simpa [hstart] using hnone
  · cases h
    exact ⟨isPlain_of_untimed.toIsUsual, fun _ => isPlain_of_untimed⟩

theorem isPlain_make {first : Date} {last : Option Date} (part : Option DayPart) {r : DateRange}
    (h : make first last (part.map (·.start)) (part.map (·.stop)) = .ok r) : r.IsPlain := by
  refine (isUsual_make h).2 fun s hs => ?_
  obtain ⟨p, -, rfl⟩ := Option.map_eq_some_iff.mp hs
  exact p.offset_eq_none.1

theorem isPlain_ofDay {d : Date} {part : Option DayPart} {r : DateRange}
    (h : ofDay d part = .ok r) : r.IsPlain := by
  cases part with
  | none => exact isPlain_of_eq h
  | some p => exact isPlain_make (some p) h

/-! ## Moments in a range -/

/-- What is needed to tell whether the moment lies in the range. -/
def CanTell (r : DateRange) (m : Moment) : Prop :=
  match r.startTime with
  | none => m.offset = none
  | some s => r.first ≤ m.date ∧ m.date ≤ r.last → s.offset = none

theorem IsPlain.canTell {r : DateRange} (h : r.IsPlain) {m : Moment} (hm : m.offset = none) :
    r.CanTell m := by
  unfold CanTell
  cases hs : r.startTime with
  | none => exact hm
  | some s => exact fun _ => h.offset_eq_none s hs

theorem contains_untimed_succeeds_iff {r : DateRange} (h : r.startTime = none) (m : Moment) :
    Succeeds (r.contains m) ↔ m.offset = none := by
  have hnone : (r.bounds.1.offset.isSome = m.offset.isSome) ↔ m.offset = none := by
    change false = m.offset.isSome ↔ m.offset = none
    cases m.offset <;> simp
  unfold contains
  simp only [h]
  rw [← hnone]
  refine (succeeds_and_iff fun hopen => ?_).trans Moment.upTo_succeeds_iff
  exact Moment.upTo_succeeds_iff.mpr (Moment.upTo_succeeds_iff.mp hopen).symm

/-- The days of a range that runs past midnight are its first and its last one. -/
theorem mem_days_iff {r : DateRange} (h : r.last.dayNumber = r.first.dayNumber + 1) (d : Date) :
    r.first ≤ d ∧ d ≤ r.last ↔ d = r.first ∨ d = r.last := by
  rw [Date.le_iff, Date.le_iff, ← Date.dayNumber_inj, ← Date.dayNumber_inj]
  omega

/-- A moment on other days than those of the range is compared with no time. -/
theorem contains_timed_succeeds_iff {r : DateRange} (h : r.IsUsual) {s : Time}
    (hs : r.startTime = some s) (m : Moment) :
    Succeeds (r.contains m) ↔ (r.first ≤ m.date ∧ m.date ≤ r.last → s.offset = none) := by
  obtain ⟨e, he⟩ := Option.isSome_iff_exists.mp (h.both ▸ Option.isSome_of_mem hs)
  have halike := h.alike s hs e he
  obtain ⟨wraps, hwraps⟩ := Time.before_succeeds_iff.mpr halike.symm
  have hlower : Succeeds (s.upTo m.time.bare) ↔ s.offset = none := by
    simp [Time.upTo_succeeds_iff, Time.bare]
  have hupper : Succeeds (m.time.bare.upTo e) ↔ s.offset = none := by
    simp [Time.upTo_succeeds_iff, Time.bare, ← halike]
  unfold contains
  simp only [hs, he, hwraps, succeeds_ok_bind]
  cases wraps with
  | true =>
      have hnext := h.next_day s hs e he hwraps
      simp only [if_true, mem_days_iff hnext]
      by_cases hfirst : m.date = r.first
      · have hlast : m.date ≠ r.last := fun hlast => by
          rw [← hlast, ← hfirst] at hnext
          omega
        rw [if_pos hfirst, if_neg hlast, ← hlower, imp_iff_right (.inl hfirst)]
        refine succeeds_bind_of_forall fun opening => ?_
        cases opening <;> exact succeeds_pure _
      · by_cases hlast : m.date = r.last
        · rw [if_neg hfirst, if_pos hlast, imp_iff_right (.inr hlast)]
          exact hupper
        · rw [if_neg hfirst, if_neg hlast]
          exact iff_of_true (succeeds_pure _) fun hin => absurd hin (not_or.mpr ⟨hfirst, hlast⟩)
  | false =>
      simp only [Bool.false_eq_true, if_false]
      by_cases hin : r.first ≤ m.date ∧ m.date ≤ r.last
      · rw [if_pos hin, imp_iff_right hin, ← hlower]
        exact succeeds_and_iff fun h => hupper.mpr (hlower.mp h)
      · rw [if_neg hin]
        exact iff_of_true (succeeds_pure _) fun h => absurd h hin

theorem contains_succeeds_iff {r : DateRange} (h : r.IsUsual) (m : Moment) :
    Succeeds (r.contains m) ↔ r.CanTell m := by
  unfold CanTell
  cases hs : r.startTime with
  | none => exact contains_untimed_succeeds_iff hs m
  | some s => exact contains_timed_succeeds_iff h hs m

end DateRange

/-! ## Ranges of phrases -/

open DateRange

theorem Phrase.isPlain_on {p : Phrase} {today : Date} {preferPast : Bool} {r : DateRange}
    (h : p.on today preferPast = .ok r) : r.IsPlain := by
  match p with
  | .day d part =>
      obtain ⟨day, -, h⟩ := bind_eq_ok_iff.mp h
      exact isPlain_ofDay h
  | .current .week | .lastDays n =>
      obtain ⟨first, -, h⟩ := bind_eq_ok_iff.mp h
      exact isPlain_of_eq h
  | .current .month | .current .year => exact isPlain_of_eq h
  | .previous .week =>
      obtain ⟨monday, -, h⟩ := bind_eq_ok_iff.mp h
      obtain ⟨start, -, h⟩ := bind_eq_ok_iff.mp h
      obtain ⟨stop, -, h⟩ := bind_eq_ok_iff.mp h
      exact isPlain_of_eq h
  | .previous .month =>
      obtain ⟨last, -, h⟩ := bind_eq_ok_iff.mp h
      exact isPlain_of_eq h
  | .previous .year =>
      obtain ⟨first, -, h⟩ := bind_eq_ok_iff.mp h
      obtain ⟨last, -, h⟩ := bind_eq_ok_iff.mp h
      exact isPlain_of_eq h

namespace Resolver

theorem isPlain_rangeFor {m : Moment} {period : Option String} {part : Option DayPart}
    {r : DateRange} (h : rangeFor m period part = .ok r) : r.IsPlain := by
  unfold rangeFor at h
  split at h
  · exact isPlain_ofDay h
  · exact (isUsual_make h).2 (by simp [Time.hourStart])
  · obtain ⟨monday, -, h⟩ := bind_eq_ok_iff.mp h
    obtain ⟨sunday, -, h⟩ := bind_eq_ok_iff.mp h
    exact isPlain_of_eq h
  · exact isPlain_of_eq h
  · exact isPlain_of_eq h
  · exact isPlain_of_eq h

theorem isPlain_rangeOf {o : Outside} {k : ParserSettings} {part : Option DayPart} {f : Found} {others : List Found}
    {r : DateRange} (h : rangeOf o k part f others = .ok r) : r.IsPlain := by
  cases others with
  | nil => exact isPlain_rangeFor h
  | cons g others => exact isPlain_make part h

theorem isPlain_parsed {o : Outside} {k : ParserSettings} {words : List String} {r : DateRange}
    (h : parsed o k words = .ok (some r)) : r.IsPlain := by
  obtain ⟨f, others, part, -, -, hrange⟩ := parsed_eq_ok_some_iff.mp h
  exact isPlain_rangeOf hrange

/-- Even the range that a model gives has the usual form. -/
theorem isUsual_guessOf {phrase : String} {fields : List (String × Json)} {guess : DateGuess}
    (h : DateGuesser.guessOf phrase fields = .ok guess) : guess.range.IsUsual := by
  obtain ⟨first, -, h⟩ := bind_eq_ok_iff.mp h
  obtain ⟨last, -, h⟩ := bind_eq_ok_iff.mp h
  obtain ⟨startTime, -, h⟩ := bind_eq_ok_iff.mp h
  obtain ⟨endTime, -, h⟩ := bind_eq_ok_iff.mp h
  dsimp only at h
  split at h
  · rename_i range hrange
    cases h
    exact (isUsual_make hrange).1
  · cases h

theorem isUsual_guess {o : Outside} {g : DateGuesser} {now : Moment} {phrase : String}
    {t : Transcript} {guess : DateGuess} (h : ((g.guess o now phrase).run t).1 = .ok guess) :
    guess.range.IsUsual := by
  rw [DateGuesser.guess, bind_fst] at h
  obtain ⟨fields, -, h⟩ := bind_eq_ok_iff.mp h
  cases hguess : DateGuesser.guessOf phrase fields with
  | error e =>
      rw [hguess] at h
      cases h
  | ok g =>
      rw [hguess] at h
      cases h
      exact isUsual_guessOf hguess

/-- Only the range that a model gives can have times with an offset. -/
theorem isUsual_resolve {o : Outside} {r : Resolver} {now : Moment} {phrase : String}
    {relaxed : Bool} {t : Transcript} {range : DateRange} {label : String} {strategy : Strategy}
    (h : ((r.resolve o now phrase relaxed).run t).1 = .ok (.found range label strategy)) :
    range.IsUsual ∧ (r.guesser = none → range.IsPlain) := by
  have hplain : range.IsPlain → range.IsUsual ∧ (r.guesser = none → range.IsPlain) :=
    fun hplain => ⟨hplain.toIsUsual, fun _ => hplain⟩
  rcases resolve_cases h with ⟨-, p, -, hon⟩ | ⟨-, hparsed⟩ | ⟨-, g, hg, _, _, guess, hguess, rfl, -⟩
  · exact hplain (Phrase.isPlain_on hon)
  · exact hplain (isPlain_parsed hparsed)
  · refine ⟨isUsual_guess hguess, fun hnone => ?_⟩
    rw [hnone] at hg
    cases hg

end Resolver

end Clipboard.Calendar
