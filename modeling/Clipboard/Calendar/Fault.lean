import Clipboard.Text.Quoted

/-!
What goes wrong with dates and times.
-/

namespace Clipboard.Calendar

inductive Fault
  /-- A day before the first or after the last one of the calendar. -/
  | outOfRange
  | year (n : Int)
  | month
  | day
  | hour
  | minute
  | second
  | micro
  /-- An offset of a whole day or more, in microseconds. -/
  | offset (micros : Int)
  /-- A text that is no date or time. -/
  | unreadable (s : String)
  /-- A time with an offset compared with one without. -/
  | mixedOffsets
  deriving DecidableEq, Repr

/-- A length of time in days, seconds and microseconds, the last two never negative. -/
def spanText (micros : Int) : String :=
  let days := micros.fdiv 86400000000
  let rest := micros.fmod 86400000000
  let part (name : String) (n : Int) : List String := if n == 0 then [] else [s!"{name}={n}"]
  let parts := part "days" days ++ part "seconds" (rest / 1000000)
    ++ part "microseconds" (rest % 1000000)
  "datetime.timedelta(" ++ (if parts.isEmpty then "0" else ", ".intercalate parts) ++ ")"

def Fault.message : Fault → String
  | outOfRange => "date value out of range"
  | year n => s!"year {n} is out of range"
  | month => "month must be in 1..12"
  | day => "day is out of range for month"
  | hour => "hour must be in 0..23"
  | minute => "minute must be in 0..59"
  | second => "second must be in 0..59"
  | micro => "microsecond must be in 0..999999"
  | offset micros =>
    "offset must be a timedelta strictly between -timedelta(hours=24) and timedelta(hours=24), not "
      ++ spanText micros ++ "."
  | unreadable s => "Invalid isoformat string: " ++ Text.quotedString s
  | mixedOffsets => "can't compare offset-naive and offset-aware times"

end Clipboard.Calendar
