import Clipboard.Calendar.Phrase
import Clipboard.Proofs.Calendar.Iso
import Clipboard.Proofs.Calendar.Making

/-!
When a phrase has a meaning: exactly if the calendar has the days that are counted on the way. A part
of a day that runs past midnight takes in the day after, too. No phrase counts further than 998 days
back or 7 days ahead.
-/

namespace Clipboard

theorem Text.digit?_le {c : Char} {n : Nat} (h : digit? c = some n) : n ≤ 9 := by
  unfold digit? at h
  dsimp only at h
  split at h
  · split at h
    · rename_i hdigit
      cases h
      simp only [Char.isDigit, Bool.and_eq_true, decide_eq_true_eq] at hdigit
      have hle : c.toNat ≤ 57 := hdigit.2
      omega
    · cases h
  · obtain ⟨first, hfirst, rfl⟩ := Option.map_eq_some_iff.mp h
    have hrange := Array.find?_some hfirst
    simp only [Bool.and_eq_true, decide_eq_true_eq] at hrange
    omega

namespace Calendar

open Fallible

/-! ## Ranges -/

namespace DateRange

/-- Times that run past midnight ask for a day after the first one. -/
theorem make_succeeds_iff (first last : Date) {s e : Time} (hs : s.offset = none)
    (he : e.offset = none) :
    Succeeds (make first (some last) (some s) (some e)) ↔
      (e.micros < s.micros → IsDay ((min first.dayNumber last.dayNumber : Nat) + 1)) := by
  have halike : s.offset.isSome = e.offset.isSome := by rw [hs, he]
  have hmin : (if last < first then last else first).dayNumber =
      min first.dayNumber last.dayNumber := by
    split
    · rename_i hlt
      exact (Nat.min_eq_right (Nat.le_of_lt hlt)).symm
    · rename_i hle
      exact (Nat.min_eq_left (Nat.le_of_not_lt hle)).symm
  have hwraps : e.universal < s.universal ↔ e.micros < s.micros := by
    rw [Time.universal_eq hs, Time.universal_eq he, Int.ofNat_lt]
  have hnext : IsDay ((min first.dayNumber last.dayNumber : Nat) + 1) ↔
      (min first.dayNumber last.dayNumber : Nat) < lastDay := by
    unfold IsDay
    omega
  rw [make_succeeds_iff_isTimeable, imp_iff_right (.inl rfl), Option.getD_some, Option.getD_some,
    hnext, ← hmin, ← hwraps]
  exact ⟨fun h => h.next_day, fun h => ⟨halike, h⟩⟩

end DateRange

/-- The day after, if the part of the day runs into it. -/
def DayPart.nextDays : Option DayPart → Int → List Int
  | some p, n => if p.wraps then [n + 1] else []
  | none, _ => []

theorem DayPart.offset_eq_none (p : DayPart) : p.start.offset = none ∧ p.stop.offset = none := by
  cases p <;> exact ⟨rfl, rfl⟩

theorem DayPart.eq_of_mem_nextDays {part : Option DayPart} {d n : Int}
    (h : n ∈ nextDays part d) : n = d + 1 := by
  cases part with
  | none => cases h
  | some p =>
      simp only [nextDays] at h
      split at h
      · exact List.mem_singleton.mp h
      · cases h

namespace DateRange

theorem make_part_succeeds_iff {first last : Date} (h : first.dayNumber ≤ last.dayNumber)
    (part : Option DayPart) :
    Succeeds (make first (some last) (part.map (·.start)) (part.map (·.stop))) ↔
      ∀ n ∈ DayPart.nextDays part first.dayNumber, IsDay n := by
  cases part with
  | none => simp [make, DayPart.nextDays]
  | some p =>
      have hwraps : p.wraps = true ↔ p.stop.micros < p.start.micros := decide_eq_true_iff
      rw [Option.map_some, Option.map_some,
        make_succeeds_iff _ _ p.offset_eq_none.1 p.offset_eq_none.2, ← hwraps, Nat.min_eq_left h]
      simp only [DayPart.nextDays]
      generalize p.wraps = wraps
      cases wraps <;> simp

/-- A part of the day that runs past midnight takes the range to the day after the first one. -/
theorem make_part_eq_ok_iff {first last : Date} (h : first ≤ last) {part : Option DayPart}
    {r : DateRange} :
    make first (some last) (part.map (·.start)) (part.map (·.stop)) = .ok r ↔
      ∃ stop, (if part.any (·.wraps) then stop.dayNumber = first.dayNumber + 1 else stop = last) ∧
        r = ⟨first, stop, part.map (·.start), part.map (·.stop)⟩ := by
  cases part with
  | none =>
      rw [Option.map_none, Option.map_none, make_eq, Option.getD_some, ordered_of_le h]
      simp [eq_comm]
  | some p =>
      have hwraps : p.stop.before p.start = .ok p.wraps :=
        Time.before_eq p.offset_eq_none.2 p.offset_eq_none.1
      rw [Option.map_some, Option.map_some, make_eq, Option.getD_some, ordered_of_le h]
      simp only [Option.isSome_some, Bool.or_self, if_true, Option.getD_some]
      rw [timed_eq_ok_iff, hwraps, Option.any_some]
      generalize p.wraps = wraps
      simp only [Except.ok.injEq, exists_and_left, exists_eq_left']

theorem ofDay_succeeds_iff (d : Date) (part : Option DayPart) :
    Succeeds (ofDay d part) ↔ ∀ n ∈ DayPart.nextDays part d.dayNumber, IsDay n := by
  cases part with
  | none => simp [ofDay, DayPart.nextDays]
  | some p => exact make_part_succeeds_iff (Nat.le_refl _) (some p)

end DateRange

/-! ## Phrases -/

/-- How many days the day is after the current one. -/
def RelativeDay.shift (today : Date) (preferPast : Bool) : RelativeDay → Int
  | shifted n => n
  | weekday w strictlyPast =>
    let back := (today.weekday.index + 7 - w.index) % 7
    let ahead := (w.index + 7 - today.weekday.index) % 7
    if strictlyPast || preferPast then -(if strictlyPast && back == 0 then 7 else back : Nat)
    else ahead

theorem RelativeDay.on_eq (today : Date) (preferPast : Bool) (d : RelativeDay) :
    d.on today preferPast = today.addDays (d.shift today preferPast) := by
  cases d with
  | shifted n => rfl
  | weekday w strictlyPast =>
      simp only [on, shift]
      split <;> rfl

/-- The days that the calendar must have for a phrase to have a meaning. -/
def Phrase.neededDays (today : Date) (preferPast : Bool) : Phrase → List Int
  | day d part =>
    let n := today.dayNumber + d.shift today preferPast
    n :: DayPart.nextDays part n
  | current _ => []
  | previous .week => [today.dayNumber - today.weekday.index - 7]
  | previous .month => [today.monthStart.dayNumber - 1]
  | previous .year => [today.yearStart.dayNumber - 1]
  | lastDays n => [today.dayNumber + 1 - (max n 1 : Nat)]

namespace Phrase

variable (today : Date) (preferPast : Bool)

theorem on_day_succeeds_iff (d : RelativeDay) (part : Option DayPart) :
    Succeeds ((day d part).on today preferPast) ↔
      ∀ n ∈ (day d part).neededDays today preferPast, IsDay n := by
  simp only [on, neededDays, succeeds_bind_iff, RelativeDay.on_eq, List.forall_mem_cons,
    DateRange.ofDay_succeeds_iff]
  constructor
  · rintro ⟨e, he, hnext⟩
    rw [Date.dayNumber_addDays he] at hnext
    exact ⟨(today.addDays_succeeds_iff _).mp ⟨e, he⟩, hnext⟩
  · rintro ⟨hday, hnext⟩
    obtain ⟨e, he⟩ := (today.addDays_succeeds_iff _).mpr hday
    rw [← Date.dayNumber_addDays he] at hnext
    exact ⟨e, he, hnext⟩

/-- The week before has a Sunday if it has a Monday. -/
theorem on_previous_week_succeeds_iff :
    Succeeds ((previous .week).on today preferPast) ↔
      IsDay (today.dayNumber - today.weekday.index - 7) := by
  obtain ⟨monday, hmonday⟩ := today.weekStart_succeeds
  have hnumber := Date.dayNumber_addDays hmonday
  have hbefore : (today.dayNumber - today.weekday.index - 7 : Int) = monday.dayNumber + -7 := by
    omega
  simp only [on, hmonday, succeeds_ok_bind, hbefore]
  simp only [succeeds_bind_iff]
  constructor
  · rintro ⟨start, hstart, -⟩
    exact (monday.addDays_succeeds_iff (-7)).mp ⟨start, hstart⟩
  · intro hday
    obtain ⟨start, hstart⟩ := (monday.addDays_succeeds_iff (-7)).mpr hday
    have hsunday : IsDay (start.dayNumber + 6) := by
      have hstart := Date.dayNumber_addDays hstart
      have hlast := monday.isDay
      unfold IsDay at *
      omega
    obtain ⟨sunday, hsunday⟩ := (start.addDays_succeeds_iff 6).mpr hsunday
    exact ⟨start, hstart, sunday, hsunday, succeeds_pure _⟩

theorem on_previous_year_succeeds_iff :
    Succeeds ((previous .year).on today preferPast) ↔ IsDay (today.yearStart.dayNumber - 1) := by
  have hlast := today.year_range.2
  simp only [on, Date.isDay_before_yearStart_iff, succeeds_bind_iff]
  constructor
  · rintro ⟨first, hfirst, -⟩
    exact (Date.make_succeeds_iff.mp ⟨first, hfirst⟩).1.1
  · intro hyear
    have hrange : 1 ≤ today.year - 1 ∧ today.year - 1 ≤ 9999 := ⟨hyear, by omega⟩
    obtain ⟨first, hfirst⟩ := Date.make_succeeds_iff.mpr
      ⟨hrange, (by decide : 1 ≤ 1 ∧ 1 ≤ 12), (by decide : 1 ≤ 1 ∧ 1 ≤ 31)⟩
    obtain ⟨last, hlast⟩ := Date.make_succeeds_iff.mpr
      ⟨hrange, (by decide : 1 ≤ 12 ∧ 12 ≤ 12), (by decide : 1 ≤ 31 ∧ 31 ≤ 31)⟩
    exact ⟨first, hfirst, last, hlast, succeeds_pure _⟩

theorem on_succeeds_iff (p : Phrase) :
    Succeeds (p.on today preferPast) ↔ ∀ n ∈ p.neededDays today preferPast, IsDay n := by
  cases p with
  | day d part => exact on_day_succeeds_iff today preferPast d part
  | current u =>
      cases u with
      | week =>
          simp only [neededDays, List.not_mem_nil, false_imp_iff, implies_true, iff_true]
          exact (succeeds_bind_of_forall fun _ => succeeds_pure _).mpr today.weekStart_succeeds
      | month => simp [on, neededDays]
      | year => simp [on, neededDays]
  | previous u =>
      simp only [neededDays]
      cases u with
      | week =>
          rw [List.forall_mem_singleton]
          exact on_previous_week_succeeds_iff today preferPast
      | month =>
          rw [List.forall_mem_singleton, Int.sub_eq_add_neg]
          exact (succeeds_bind_of_forall fun _ => succeeds_pure _).trans
            (today.monthStart.addDays_succeeds_iff (-1))
      | year =>
          rw [List.forall_mem_singleton]
          exact on_previous_year_succeeds_iff today preferPast
  | lastDays n =>
      have hfirst : (today.dayNumber + 1 - (max n 1 : Nat) : Int) =
          today.dayNumber + (1 - (max n 1 : Nat)) := by omega
      rw [neededDays, List.forall_mem_singleton, hfirst]
      exact (succeeds_bind_of_forall fun _ => succeeds_pure _).trans (today.addDays_succeeds_iff _)

/-! ## How far phrases count -/

/-- The day itself is next to the current one, or on a day of the week; no more than 999 days are
counted back. -/
def IsNear : Phrase → Prop
  | day (.shifted n) _ => -1 ≤ n ∧ n ≤ 1
  | lastDays n => n ≤ 999
  | _ => True

theorem count?_le {s : String} {n : Nat} (h : count? s = some n) : n ≤ 999 := by
  unfold count? at h
  dsimp only at h
  split at h
  · rename_i hcount
    cases h
    simp only [Bool.and_eq_true, decide_eq_true_eq] at hcount
    have hlength : (s.toList.map Text.digit?).length ≤ 3 := by
      rw [List.length_map, String.length_toList]
      exact hcount.1.1
    have hdigits : ∀ d ∈ s.toList.map Text.digit?, d.getD 0 ≤ 9 := by
      intro d hd
      obtain ⟨c, -, rfl⟩ := List.mem_map.mp hd
      cases hc : Text.digit? c with
      | none => exact Nat.zero_le 9
      | some k => exact Text.digit?_le hc
    generalize s.toList.map Text.digit? = ds at hdigits hlength
    match ds, hlength with
    | [], _ => decide
    | [a], _ => simp at hdigits ⊢; omega
    | [a, b], _ => simp at hdigits ⊢; omega
    | [a, b, c], _ => simp at hdigits ⊢; omega
  · cases h

section

variable {ws : List String} {p : Phrase}

theorem isNear_of_dayPhrase? (h : dayPhrase? ws = some p) : p.IsNear := by
  have hshifted : ∀ n : Int, -1 ≤ n → n ≤ 1 →
      ∀ rest, (part? rest).map (day (.shifted n)) = some p → p.IsNear := by
    intro n hlow hhigh rest h
    obtain ⟨part, -, rfl⟩ := Option.map_eq_some_iff.mp h
    exact ⟨hlow, hhigh⟩
  unfold dayPhrase? at h
  split at h
  · exact hshifted 0 (by decide) (by decide) _ h
  · exact hshifted (-1) (by decide) (by decide) _ h
  · exact hshifted 1 (by decide) (by decide) _ h
  · split at h
    · cases h
      simp [IsNear]
    · cases h
  · simp only [bind, pure, Option.bind_eq_some_iff, Option.some.injEq] at h
    obtain ⟨w, -, part, -, rfl⟩ := h
    trivial
  · simp only [bind, pure, Option.bind_eq_some_iff, Option.some.injEq] at h
    obtain ⟨w, -, part, -, rfl⟩ := h
    trivial
  · cases h

theorem isNear_of_spanPhrase? (h : spanPhrase? ws = some p) : p.IsNear := by
  unfold spanPhrase? at h
  split at h
  · obtain ⟨u, -, rfl⟩ := Option.map_eq_some_iff.mp h
    trivial
  · split at h
    · obtain ⟨u, -, rfl⟩ := Option.map_eq_some_iff.mp h
      trivial
    · cases h
  · split at h
    · obtain ⟨n, hn, rfl⟩ := Option.map_eq_some_iff.mp h
      exact count?_le hn
    · cases h
  · cases h

theorem isNear_of_ofWords? (h : ofWords? ws = some p) : p.IsNear := by
  unfold ofWords? at h
  split at h
  · cases h
    simp [IsNear]
  · cases h
    simp [IsNear]
  · split at h
    · cases h
      simp [IsNear]
    · exact isNear_of_dayPhrase? h
  · rw [Option.orElse_eq_orElse, Option.orElse_eq_or, Option.or_eq_some_iff] at h
    rcases h with h | ⟨-, h⟩
    · exact isNear_of_dayPhrase? h
    · exact isNear_of_spanPhrase? h

end

theorem shift_near {d : RelativeDay} {part : Option DayPart} (h : (day d part).IsNear) :
    d.shift today preferPast ≤ 6 ∧ -7 ≤ d.shift today preferPast := by
  cases d with
  | shifted n =>
      have hn : -1 ≤ n ∧ n ≤ 1 := h
      exact ⟨Int.le_trans hn.2 (by decide), Int.le_trans (by decide) hn.1⟩
  | weekday w strictlyPast =>
      simp only [RelativeDay.shift]
      repeat' split
      all_goals omega

theorem neededDays_near {p : Phrase} (hp : p.IsNear) :
    ∀ n ∈ p.neededDays today preferPast, today.dayNumber - 998 ≤ n ∧ n ≤ today.dayNumber + 7 := by
  intro n hn
  cases p with
  | day d part =>
      obtain ⟨hhigh, hlow⟩ := shift_near today preferPast hp
      rcases List.mem_cons.mp hn with rfl | hn
      · omega
      · have hnext := DayPart.eq_of_mem_nextDays hn
        omega
  | current u => cases hn
  | previous u =>
      cases u with
      | week =>
          have hindex := today.index_weekday
          have hn := List.mem_singleton.mp hn
          omega
      | month =>
          have hmonth : today.monthStart.dayNumber =
              daysBeforeYear today.year + daysBeforeMonth today.year today.month + 1 := rfl
          have hday := Nat.le_trans today.day_range.2 (daysInMonth_le _ _)
          have hn := List.mem_singleton.mp hn
          rw [hn, Date.dayNumber, hmonth]
          omega
      | year =>
          have hyear : today.yearStart.dayNumber = daysBeforeYear today.year + 1 := rfl
          have hlast := today.dayNumber_le_year
          have hlength : (if isLeap today.year then 1 else 0) ≤ 1 := by split <;> decide
          rw [daysBeforeYear_succ today.year_range.1] at hlast
          have hfirst := today.daysBeforeYear_lt
          have hn := List.mem_singleton.mp hn
          omega
  | lastDays k =>
      have hk : k ≤ 999 := hp
      have hn := List.mem_singleton.mp hn
      omega

end Phrase

end Calendar

end Clipboard
