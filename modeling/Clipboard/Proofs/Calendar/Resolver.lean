import Mathlib.Order.Bounds.Defs
import Clipboard.Calendar.Resolver
import Clipboard.Proofs.Calendar.DayPart
import Clipboard.Proofs.Calendar.Phrase

/-!
When the days of a phrase can be told: exactly if no day that is counted on the way is outside the
calendar, and no part of a day is misspelt. What the parser finds and what a model says cannot be in
the way otherwise.
-/

namespace Clipboard.Calendar

open Fallible
open Remote (Found Outside ParserSettings Transcript)

/-! ## Resolutions -/

def Resolution.range? : Resolution → Option DateRange
  | found range _ _ => some range
  | unresolved _ => none

def Resolution.isResolved : Resolution → Bool
  | found .. => true
  | unresolved _ => false

namespace Resolver

/-! ## What the parser finds -/

section

variable (o : Outside) (k : ParserSettings) (words : List String) (t : Transcript)

/-- The dates in the phrase, whatever was asked before. -/
def datesFound : List Found :=
  let found := o.datesOf k (" ".intercalate words)
  let fromParts := ((pieces words).map (o.datesOf k)).flatten
  if found.length < 2 && 1 < (pieces words).length && 1 < fromParts.length then fromParts else found

theorem datesFound_eq_nil (h : ∀ s, o.datesOf k s = []) : datesFound o k words = [] := by
  have hparts : ((pieces words).map (o.datesOf k)).flatten = [] := by simp [h]
  simp [datesFound, h, hparts]

theorem mapM_findDates (parts : List String) :
    (parts.mapM (o.findDates k) t).1 = parts.map (o.datesOf k) := by
  induction parts generalizing t with
  | nil => rfl
  | cons p ps ih =>
      rw [List.mapM_cons, List.map_cons, ← ih (o.findDates k p t).2]
      rfl

theorem datesIn_fst : (datesIn o k words t).1 = datesFound o k words := by
  have hwhole : o.findDates k (" ".intercalate words) t = (o.datesOf k (" ".intercalate words),
      { t with searched := t.searched ++ [" ".intercalate words] }) := rfl
  unfold datesIn datesFound
  simp only [bind, StateT.bind, hwhole]
  by_cases hfew : ((o.datesOf k (" ".intercalate words)).length < 2 && 1 < (pieces words).length) = true
  · have hparts := mapM_findDates o k { t with searched := t.searched ++ [" ".intercalate words] }
      (pieces words)
    simp only [hfew, if_true, Bool.true_and, decide_eq_true_eq, ← hparts]
    rfl
  · simp only [hfew, Bool.false_eq_true, if_false, Bool.false_and]
    rfl

end

/-! ## The range of what is found -/

/-- The day that ends the range of a single moment, where that is a later one. -/
def momentDays (m : Moment) (period : Option String) (part : Option DayPart) : List Int :=
  match part, period with
  | some p, _ => DayPart.nextDays (some p) m.date.dayNumber
  | none, some "week" => [m.date.dayNumber - m.date.weekday.index + 6]
  | none, _ => []

theorem hour_succeeds (m : Moment) : Succeeds
    (DateRange.make m.date (some m.date) (some m.time.hourStart) (some m.time.hourEnd)) := by
  refine (DateRange.make_succeeds_iff m.date m.date rfl rfl).mpr fun hwraps => ?_
  simp only [Time.micros, Time.hourStart, Time.hourEnd] at hwraps
  omega

theorem rangeFor_succeeds_iff (m : Moment) (period : Option String) (part : Option DayPart) :
    Succeeds (rangeFor m period part) ↔ ∀ n ∈ momentDays m period part, IsDay n := by
  cases part with
  | some p => exact DateRange.ofDay_succeeds_iff m.date (some p)
  | none =>
      unfold rangeFor momentDays
      split
      · rename_i h
        cases h
      · simpa using hour_succeeds m
      · obtain ⟨monday, hmonday⟩ := m.date.weekStart_succeeds
        have hnumber := Date.dayNumber_addDays hmonday
        simp only [hmonday, succeeds_ok_bind, List.forall_mem_singleton, Int.sub_eq_add_neg,
          ← hnumber]
        exact (succeeds_bind_of_forall fun _ => succeeds_pure _).trans
          (monday.addDays_succeeds_iff 6)
      · simp
      · simp
      · simp

theorem isLeast_snoc {lo e : Date} {seen : List Date} (h : IsLeast {d | d ∈ seen} lo) :
    IsLeast {d | d ∈ seen ++ [e]} (if e < lo then e else lo) := by
  constructor
  · split
    · exact List.mem_append_right seen (List.mem_singleton_self e)
    · exact List.mem_append_left [e] h.1
  · intro d hd
    have hle : d ∈ seen → lo.dayNumber ≤ d.dayNumber := fun hmem => Date.le_iff.mp (h.2 hmem)
    simp only [Date.le_iff, Date.lt_iff]
    rcases List.mem_append.mp hd with hmem | hmem
    · have hseen := hle hmem
      split <;> omega
    · obtain rfl := List.mem_singleton.mp hmem
      split <;> omega

theorem isGreatest_snoc {hi e : Date} {seen : List Date} (h : IsGreatest {d | d ∈ seen} hi) :
    IsGreatest {d | d ∈ seen ++ [e]} (if hi < e then e else hi) := by
  constructor
  · split
    · exact List.mem_append_right seen (List.mem_singleton_self e)
    · exact List.mem_append_left [e] h.1
  · intro d hd
    have hle : d ∈ seen → d.dayNumber ≤ hi.dayNumber := fun hmem => Date.le_iff.mp (h.2 hmem)
    simp only [Date.le_iff, Date.lt_iff]
    rcases List.mem_append.mp hd with hmem | hmem
    · have hseen := hle hmem
      split <;> omega
    · obtain rfl := List.mem_singleton.mp hmem
      split <;> omega

/-- No day is earlier than the first of the two or later than the second, and both are among the
days. -/
theorem span_spec (d : Date) (ds : List Date) :
    IsLeast {e | e ∈ d :: ds} (span d ds).1 ∧ IsGreatest {e | e ∈ d :: ds} (span d ds).2 := by
  -- The days that were passed come in front of those that are left.
  have hfold : ∀ (left seen : List Date) (lo hi : Date), IsLeast {e | e ∈ seen} lo →
      IsGreatest {e | e ∈ seen} hi →
      let ends := left.foldl (fun (x : Date × Date) e =>
        (if e < x.1 then e else x.1, if x.2 < e then e else x.2)) (lo, hi)
      IsLeast {e | e ∈ seen ++ left} ends.1 ∧ IsGreatest {e | e ∈ seen ++ left} ends.2 := by
    intro left
    induction left with
    | nil =>
        intro seen lo hi hleast hgreatest
        rw [List.append_nil]
        exact ⟨hleast, hgreatest⟩
    | cons e left ih =>
        intro seen lo hi hleast hgreatest
        have hrest := ih (seen ++ [e]) _ _ (isLeast_snoc hleast) (isGreatest_snoc hgreatest)
        rw [List.append_assoc] at hrest
        exact hrest
  have hmem : d ∈ {e | e ∈ [d]} := List.mem_singleton_self d
  have honly : ∀ e ∈ {e | e ∈ [d]}, e.dayNumber = d.dayNumber := fun e he =>
    congrArg Date.dayNumber (List.mem_singleton.mp he)
  exact hfold ds [d] d d ⟨hmem, fun e he => Nat.le_of_eq (honly e he).symm⟩
    ⟨hmem, fun e he => Nat.le_of_eq (honly e he)⟩

theorem span_fst_le_snd (d : Date) (ds : List Date) : (span d ds).1 ≤ (span d ds).2 :=
  (span_spec d ds).1.2 (span_spec d ds).2.1

/-- The range of a date that is found, or of all that are. -/
def rangeOf (o : Outside) (k : ParserSettings) (part : Option DayPart) : Found → List Found → Except Fault DateRange
  | (text, moment), [] => rangeFor moment (o.periodOf k text) part
  | (_, moment), others =>
    let ends := span moment.date (moment.date :: others.map (·.2.date))
    DateRange.make ends.1 (some ends.2) (part.map (·.start)) (part.map (·.stop))

/-- The days that the calendar must have for what is found to have a range. -/
def neededDays (o : Outside) (k : ParserSettings) (part : Option DayPart) : List Found → List Int
  | [] => []
  | [(text, moment)] => momentDays moment (o.periodOf k text) part
  | found@((_, moment) :: _) =>
    DayPart.nextDays part (span moment.date (found.map (·.2.date))).1.dayNumber

theorem rangeOf_succeeds_iff (o : Outside) (k : ParserSettings) (part : Option DayPart) (f : Found)
    (others : List Found) :
    Succeeds (rangeOf o k part f others) ↔ ∀ n ∈ neededDays o k part (f :: others), IsDay n := by
  cases others with
  | nil => exact rangeFor_succeeds_iff f.2 (o.periodOf k f.1) part
  | cons g others =>
      have hle := span_fst_le_snd f.2.date (f.2.date :: (g :: others).map (·.2.date))
      exact DateRange.make_part_succeeds_iff hle part

/-- What the parser's dates come to, whatever was asked before. -/
def parsed (o : Outside) (k : ParserSettings) (words : List String) : Except ResolveFault (Option DateRange) :=
  match datesFound o k words with
  | [] => .ok none
  | f :: others => match DayPart.mentioned (" ".intercalate words).toList with
    | .error name => .error (.dayPart name)
    | .ok part => ((rangeOf o k part f others).map some).mapError .calendar

theorem onCalendar_fst (x : Except Fault DateRange) (t : Transcript) :
    ((onCalendar x >>= fun range => pure (some range)).run t).1 =
      (x.map some).mapError .calendar := by
  cases x <;> rfl

theorem byParser_fst (o : Outside) (k : ParserSettings) (words : List String) (t : Transcript) :
    ((byParser o k words).run t).1 = parsed o k words := by
  refine (liftM_bind_fst (datesIn o k words) _ t).trans ?_
  rw [datesIn_fst, parsed]
  cases datesFound o k words with
  | nil => rfl
  | cons f others =>
      obtain ⟨text, moment⟩ := f
      cases DayPart.mentioned (" ".intercalate words).toList with
      | error name => rfl
      | ok part =>
          cases others with
          | nil => exact onCalendar_fst (rangeFor moment (o.periodOf k text) part) _
          | cons g others => exact onCalendar_fst (rangeOf o k part (text, moment) (g :: others)) _

theorem parsed_eq_ok_some_iff {o : Outside} {k : ParserSettings} {words : List String} {range : DateRange} :
    parsed o k words = .ok (some range) ↔ ∃ f others part, datesFound o k words = f :: others ∧
      DayPart.mentioned (" ".intercalate words).toList = .ok part ∧
      rangeOf o k part f others = .ok range := by
  unfold parsed
  cases datesFound o k words with
  | nil => simp
  | cons f others =>
      cases DayPart.mentioned (" ".intercalate words).toList with
      | error name => simp
      | ok part =>
          have hrange : ((rangeOf o k part f others).map some).mapError ResolveFault.calendar =
              .ok (some range) ↔ rangeOf o k part f others = .ok range := by
            cases rangeOf o k part f others <;> simp [Except.map, Except.mapError]
          simpa using hrange

/-- Nothing is found, or the part of the day and all days are known. -/
def IsTold (o : Outside) (k : ParserSettings) (words : List String) : Prop :=
  datesFound o k words ≠ [] → ∃ part, DayPart.mentioned (" ".intercalate words).toList = .ok part ∧
    ∀ n ∈ neededDays o k part (datesFound o k words), IsDay n

theorem parsed_succeeds_iff (o : Outside) (k : ParserSettings) (words : List String) :
    Succeeds (parsed o k words) ↔ IsTold o k words := by
  unfold parsed IsTold
  cases datesFound o k words with
  | nil => simp
  | cons f others =>
      cases DayPart.mentioned (" ".intercalate words).toList with
      | error name => simp
      | ok part =>
          simp only [ne_eq, reduceCtorEq, not_false_eq_true, true_imp_iff, Except.ok.injEq,
            exists_eq_left', ← rangeOf_succeeds_iff]
          exact succeeds_mapError_iff.trans succeeds_map_iff

/-! ## Phrases -/

/-- No day that is counted on the way is outside the calendar, and no part of a day is misspelt. -/
def Fits (o : Outside) (r : Resolver) (now : Moment) (phrase : String) : Prop :=
  let words := Phrase.wordsOf phrase.toList
  words ≠ [] → match Phrase.ofWords? words with
    | some p => ∀ n ∈ p.neededDays now.date r.preferPast, IsDay n
    | none => IsTold o (r.parserSettings now) words

theorem resolve_succeeds_iff (o : Outside) (r : Resolver) (now : Moment) (phrase : String)
    (relaxed : Bool) (t : Transcript) :
    Succeeds ((r.resolve o now phrase relaxed).run t).1 ↔ Fits o r now phrase := by
  unfold resolve Fits
  cases hwords : Phrase.wordsOf phrase.toList with
  | nil => exact iff_of_true (succeeds_ok _) nofun
  | cons w ws =>
      simp only [List.isEmpty_cons, Bool.false_eq_true, if_false, ne_eq, reduceCtorEq,
        not_false_eq_true, true_imp_iff]
      cases hphrase : Phrase.ofWords? (w :: ws) with
      | some p =>
          simp only
          rw [← Phrase.on_succeeds_iff, bind_fst]
          cases p.on now.date r.preferPast with
          | error f => exact iff_of_false (not_succeeds_error _) (not_succeeds_error f)
          | ok range => exact iff_of_true ⟨_, rfl⟩ (succeeds_ok range)
      | none =>
          simp only
          rw [← parsed_succeeds_iff, bind_fst, byParser_fst]
          refine succeeds_bind_of_forall fun range => ?_
          cases range with
          | some range => exact succeeds_ok _
          | none =>
              cases if relaxed then r.guesser else none with
              | none => exact succeeds_ok _
              | some g =>
                  simp only
                  rw [liftM_bind_fst]
                  cases ((g.guess o now (" ".intercalate (w :: ws))).run _).1 with
                  | ok answer => exact succeeds_ok _
                  | error f => exact succeeds_ok _

/-- What it takes for each of the stages to find a range. -/
theorem resolve_cases {o : Outside} {r : Resolver} {now : Moment} {phrase : String} {relaxed : Bool}
    {t : Transcript} {range : DateRange} {label : String} {strategy : Strategy}
    (h : ((r.resolve o now phrase relaxed).run t).1 = .ok (.found range label strategy)) :
    (strategy = .phraseTable ∧ ∃ p, Phrase.ofWords? (Phrase.wordsOf phrase.toList) = some p ∧
      p.on now.date r.preferPast = .ok range) ∨
    (strategy = .parser ∧ parsed o (r.parserSettings now) (Phrase.wordsOf phrase.toList) = .ok (some range)) ∨
    (strategy = .remote ∧ ∃ g ∈ r.guesser, ∃ words t' guess,
      ((g.guess o now words).run t').1 = .ok guess ∧ guess.range = range ∧ guess.label = label) := by
  unfold resolve at h
  dsimp only at h
  split at h
  · cases h
  · split at h
    · rename_i p hp
      rw [bind_fst] at h
      obtain ⟨days, hdays, h⟩ := bind_eq_ok_iff.mp h
      cases hon : p.on now.date r.preferPast with
      | error e =>
          rw [hon] at hdays
          cases hdays
      | ok range =>
          rw [hon] at hdays
          cases hdays
          cases h
          exact .inl ⟨rfl, p, hp, hon⟩
    · rw [bind_fst, byParser_fst] at h
      obtain ⟨days, hdays, h⟩ := bind_eq_ok_iff.mp h
      cases days with
      | some days =>
          cases h
          exact .inr (.inl ⟨rfl, hdays⟩)
      | none =>
          dsimp only at h
          split at h
          · cases h
          · rename_i g hg
            have hguesser : r.guesser = some g := by
              cases relaxed with
              | true => exact hg
              | false => cases hg
            rw [liftM_bind_fst] at h
            cases hguess : ((g.guess o now _).run _).1 with
            | error e =>
                rw [hguess] at h
                cases h
            | ok guess =>
                rw [hguess] at h
                cases h
                exact .inr (.inr ⟨rfl, g, hguesser, _, _, guess, hguess, rfl, rfl⟩)

/-- Whatever is outside, the phrase is a known one and means these days, and nothing is asked. -/
def Knows (r : Resolver) (now : Moment) (phrase : String) (range : DateRange) : Prop :=
  ∀ o relaxed t, ∃ label,
    (r.resolve o now phrase relaxed).run t = (.ok (.found range label .phraseTable), t)

theorem knows_of_on {r : Resolver} {now : Moment} {phrase : String} {p : Phrase} {range : DateRange}
    (hphrase : Phrase.ofWords? (Phrase.wordsOf phrase.toList) = some p)
    (hon : p.on now.date r.preferPast = .ok range) : r.Knows now phrase range := by
  intro o relaxed t
  have hwords : (Phrase.wordsOf phrase.toList).isEmpty = false := by
    cases hempty : Phrase.wordsOf phrase.toList with
    | nil =>
        rw [hempty] at hphrase
        cases hphrase
    | cons w ws => rfl
  unfold resolve
  simp only [hwords, Bool.false_eq_true, if_false, hphrase, hon]
  exact ⟨_, rfl⟩

/-- Only phrases of the table are known. -/
theorem Knows.exists_phrase {r : Resolver} {now : Moment} {phrase : String} {range : DateRange}
    (h : r.Knows now phrase range) : ∃ p, Phrase.ofWords? (Phrase.wordsOf phrase.toList) = some p ∧
      p.on now.date r.preferPast = .ok range := by
  obtain ⟨label, hrun⟩ := h ⟨fun _ _ => .nothing, fun _ _ => .ok none, fun _ _ => .ok none⟩ false {}
  rcases resolve_cases (congrArg Prod.fst hrun) with ⟨-, hphrase⟩ | ⟨hstrategy, -⟩ | ⟨hstrategy, -⟩
  · exact hphrase
  · cases hstrategy
  · cases hstrategy

/-! ## Room -/

theorem momentDays_near {m : Moment} {period : Option String} {part : Option DayPart} {n : Int}
    (h : n ∈ momentDays m period part) : 1 ≤ n ∧ n ≤ m.date.dayNumber + 6 := by
  have hday := m.date.isDay.1
  have hindex := m.date.index_weekday
  unfold momentDays at h
  split at h
  · have hn := DayPart.eq_of_mem_nextDays h
    omega
  · have hn := List.mem_singleton.mp h
    omega
  · cases h

theorem neededDays_near {o : Outside} {k : ParserSettings} {part : Option DayPart} {found : List Found} {n : Int}
    (h : n ∈ neededDays o k part found) : 1 ≤ n ∧ ∃ f ∈ found, n ≤ f.2.date.dayNumber + 6 := by
  match found, h with
  | [f], h =>
      obtain ⟨hpos, hle⟩ := momentDays_near (m := f.2) h
      exact ⟨hpos, f, List.mem_singleton_self f, hle⟩
  | f :: g :: others, h =>
      have hn := DayPart.eq_of_mem_nextDays h
      obtain ⟨⟨hmem, -⟩, -⟩ := span_spec f.2.date ((f :: g :: others).map (·.2.date))
      have hfirst : ∃ e ∈ f :: g :: others,
          e.2.date = (span f.2.date ((f :: g :: others).map (·.2.date))).1 := by
        rcases List.mem_cons.mp hmem with hmem | hmem
        · exact ⟨f, List.mem_cons_self, hmem.symm⟩
        · exact List.mem_map.mp hmem
      obtain ⟨e, he, hdate⟩ := hfirst
      rw [← hdate] at hn
      have hday := e.2.date.isDay.1
      exact ⟨by omega, e, he, by omega⟩

/-- Days far enough from both ends of the calendar, and letters as they should be. -/
structure IsRoomy (o : Outside) (r : Resolver) (now : Moment) (words : List String) : Prop where
  today : 998 < now.date.dayNumber ∧ now.date.dayNumber + 7 ≤ lastDay
  found : ∀ f ∈ datesFound o (r.parserSettings now) words, f.2.date.dayNumber + 6 ≤ lastDay
  letters : ∀ c ∈ (" ".intercalate words).toList, ¬isOddI c

theorem fits_of_isRoomy {o : Outside} (r : Resolver) {now : Moment} {phrase : String}
    (h : IsRoomy o r now (Phrase.wordsOf phrase.toList)) : Fits o r now phrase := by
  intro _
  obtain ⟨hlow, hhigh⟩ := h.today
  cases hphrase : Phrase.ofWords? (Phrase.wordsOf phrase.toList) with
  | some p =>
      intro n hn
      have hnear := Phrase.neededDays_near now.date r.preferPast
        (Phrase.isNear_of_ofWords? hphrase) n hn
      exact ⟨by omega, by omega⟩
  | none =>
      intro _
      obtain ⟨part, hpart⟩ := DayPart.mentioned_of_no_odd h.letters
      refine ⟨part, hpart, fun n hn => ?_⟩
      obtain ⟨hpos, f, hf, hle⟩ := neededDays_near hn
      exact ⟨hpos, Int.le_trans hle (h.found f hf)⟩

/-! ## Every phrase -/

/-- The days of a phrase can be told, with a range if and only if the phrase is resolved, exactly if
no day that is counted on the way is outside the calendar and no part of a day is misspelt. That is
so for all days with some room to both ends of the calendar. -/
theorem resolve_iff_fits (o : Outside) (r : Resolver) (now : Moment) (phrase : String)
    (relaxed : Bool) (t : Transcript) :
    ((∃ res, ((r.resolve o now phrase relaxed).run t).1 = .ok res ∧
        (res.range?.isSome ↔ res.isResolved)) ↔ Fits o r now phrase) ∧
      (IsRoomy o r now (Phrase.wordsOf phrase.toList) → Fits o r now phrase) := by
  refine ⟨?_, fits_of_isRoomy r⟩
  rw [← resolve_succeeds_iff o r now phrase relaxed t]
  refine exists_congr fun res => and_iff_left ?_
  cases res <;> simp [Resolution.range?, Resolution.isResolved]

/-- Nothing is ever found or said. -/
def mute : Outside := ⟨fun _ _ => .nothing, fun _ _ => .ok none, fun _ _ => .ok none⟩

/-- On a day in May there is a tomorrow, on the last day there is none. -/
theorem resolve_iff_fits_tomorrow :
    let tomorrow (d : Date) := ((({} : Resolver).resolve mute ⟨d, .midnight⟩ "tomorrow").run {}).1
    (∃ res, tomorrow ⟨2024, 5, 1, by decide, by decide, by decide⟩ = .ok res ∧
      (res.range?.isSome ↔ res.isResolved)) ∧
    ¬∃ res, tomorrow ⟨9999, 12, 31, by decide, by decide, by decide⟩ = .ok res ∧
      (res.range?.isSome ↔ res.isResolved) := by
  intro tomorrow
  have hwords : Phrase.wordsOf "tomorrow".toList = ["tomorrow"] := by decide +kernel
  have hphrase : Phrase.ofWords? ["tomorrow"] = some (.day (.shifted 1) none) := by decide
  constructor
  · obtain ⟨hfits, hroomy⟩ := resolve_iff_fits mute {}
      ⟨⟨2024, 5, 1, by decide, by decide, by decide⟩, .midnight⟩ "tomorrow" false {}
    refine hfits.mpr (hroomy ⟨by decide, ?_, ?_⟩)
    · rw [datesFound_eq_nil _ _ _ fun _ => rfl]
      exact List.forall_mem_nil _
    · rw [hwords]
      exact List.any_eq_false.mp (by decide)
  · intro h
    have hfits := (resolve_iff_fits mute {}
      ⟨⟨9999, 12, 31, by decide, by decide, by decide⟩, .midnight⟩ "tomorrow" false {}).1.mp h
    simp only [Fits, hwords, hphrase] at hfits
    have hday := hfits (by simp) 3652060 (by decide)
    exact absurd hday.2 (by decide)

end Resolver

end Clipboard.Calendar
