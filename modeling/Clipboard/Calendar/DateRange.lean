import Clipboard.Calendar.Moment

/-!
A range of days, both ends included, perhaps with times of day. With a start time later than the
end time the range runs over one midnight.
-/

namespace Clipboard.Calendar

structure DateRange where
  first : Date
  last : Date
  startTime : Option Time := none
  endTime : Option Time := none
  deriving DecidableEq

namespace DateRange

/-- The range in its usual form: the earlier day first, both times or none, and the last day after
the first one if the times run past midnight. -/
def make (first : Date) (last : Option Date := none) (startTime endTime : Option Time := none) :
    Except Fault DateRange := do
  let last := last.getD first
  let (first, last) := if last < first then (last, first) else (first, last)
  match startTime, endTime with
  | none, none => return ⟨first, last, none, none⟩
  | _, _ =>
    let s := startTime.getD .midnight
    let e := endTime.getD .endOfDay
    let last ← if ← e.before s then first.addDays 1 else pure last
    return ⟨first, last, some s, some e⟩

/-- Whole days. -/
def days (first last : Date) : DateRange :=
  if last < first then ⟨last, first, none, none⟩ else ⟨first, last, none, none⟩

def hasTimes (r : DateRange) : Bool := r.startTime.isSome && r.endTime.isSome

/-- Whether the times run past midnight. -/
def isOvernight (r : DateRange) : Except Fault Bool :=
  match r.startTime, r.endTime with
  | some s, some e => e.before s
  | _, _ => .ok false

/-- The first and the last moment of the days. -/
def bounds (r : DateRange) : Moment × Moment := (⟨r.first, .midnight⟩, ⟨r.last, .endOfDay⟩)

/-- Whether a moment lies in the range. Overnight: on the first day from the start time on, or on
the last day up to the end time. Otherwise: on one of the days, and between the times. -/
def contains (r : DateRange) (m : Moment) : Except Fault Bool := do
  match r.startTime, r.endTime with
  | some s, some e =>
    let t := m.time.bare
    if ← e.before s then
      let opening ← if m.date = r.first then s.upTo t else pure false
      if opening then pure true else if m.date = r.last then t.upTo e else pure false
    else if r.first ≤ m.date ∧ m.date ≤ r.last then
      if ← s.upTo t then t.upTo e else pure false
    else pure false
  | _, _ =>
    if ← r.bounds.1.upTo m then m.upTo r.bounds.2 else pure false

/-- The range for people, such as `May 1, 2024 22:00 – May 2, 2024 04:00`. -/
def display (r : DateRange) : String :=
  match r.startTime, r.endTime with
  | some s, some e =>
    if r.first = r.last then s!"{r.first.display} {s.display}–{e.display}"
    else s!"{r.first.display} {s.display} – {r.last.display} {e.display}"
  | _, _ =>
    if r.first = r.last then r.first.display else s!"{r.first.display} – {r.last.display}"

end DateRange

end Clipboard.Calendar
