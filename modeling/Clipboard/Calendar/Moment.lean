import Clipboard.Calendar.Date
import Clipboard.Calendar.Time

/-!
A day and a time of day.
-/

namespace Clipboard.Calendar

structure Moment where
  date : Date
  time : Time
  deriving DecidableEq

namespace Moment

def offset (m : Moment) : Option Offset := m.time.offset

/-- The moment without its offset. -/
def bare (m : Moment) : Moment := { m with time := m.time.bare }

/-- Microseconds from a fixed start, in universal time. -/
def universal (m : Moment) : Int :=
  m.date.dayNumber * 86400000000 + m.time.micros - (m.offset.map (·.micros)).getD 0

/-- Whether `a` is earlier than `b`; both must have an offset or both none. -/
def before (a b : Moment) : Except Fault Bool :=
  if a.offset.isSome != b.offset.isSome then .error .mixedOffsets
  else .ok (a.universal < b.universal)

/-- Whether `a` is no later than `b`. -/
def upTo (a b : Moment) : Except Fault Bool :=
  if a.offset.isSome != b.offset.isSome then .error .mixedOffsets
  else .ok (a.universal ≤ b.universal)

/-- The moment as `2024-05-01T10:30:00`. -/
def isoText (m : Moment) : String := m.date.isoText ++ "T" ++ m.time.isoText

def monthNames : List String :=
  ["January", "February", "March", "April", "May", "June", "July", "August", "September",
    "October", "November", "December"]

/-- The moment for people, such as `May 2, 2025 · 2:34 PM`. -/
def display (m : Moment) : String :=
  let hour := if m.time.hour % 12 == 0 then 12 else m.time.hour % 12
  (monthNames[m.date.month - 1]?).getD "" ++ s!" {m.date.day}, {m.date.year} · {hour}:"
    ++ Decimal.padded 2 m.time.minute ++ (if m.time.hour < 12 then " AM" else " PM")

end Moment

end Clipboard.Calendar
