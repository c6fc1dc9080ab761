import Clipboard.Calendar.DateRange
import Clipboard.Calendar.DayPart
import Clipboard.Text.Split

/-!
Phrases for days that are told from the current day alone: `yesterday evening`, `last friday`,
`this month`, `last 3 days`.
-/

namespace Clipboard.Calendar

inductive Span
  | week | month | year
  deriving DecidableEq, Repr

/-- A day as seen from the current one. -/
inductive RelativeDay
  /-- So many days from today. -/
  | shifted (days : Int)
  /-- A day of the week; `strictlyPast` excludes today. -/
  | weekday (w : Weekday) (strictlyPast : Bool)
  deriving DecidableEq, Repr

inductive Phrase
  | day (d : RelativeDay) (part : Option DayPart)
  /-- The current unit up to today. -/
  | current (u : Span)
  /-- The whole unit before the current one. -/
  | previous (u : Span)
  | lastDays (n : Nat)
  deriving DecidableEq, Repr

namespace Phrase

/-- Lower case words; commas separate like blanks. -/
def wordsOf (phrase : List Char) : List String :=
  (Text.words ((Text.lower phrase).map fun c => if c == ',' then ' ' else c)).map .ofList

def span? : String → Option Span
  | "week" => some .week
  | "month" => some .month
  | "year" => some .year
  | _ => none

def weekday? (s : String) : Option Weekday :=
  Weekday.all.find? fun w => Text.lowerString w.name == s

/-- The part of the day behind a day, after `at` or `in the` or nothing. -/
def part? : List String → Option (Option DayPart)
  | [] => some none
  | [p] | ["at", p] | ["in", "the", p] => (DayPart.ofName? p).map some
  | _ => none

def isBack (s : String) : Bool := s == "last" || s == "past" || s == "previous"

/-- One to three digits of any script. -/
def count? (s : String) : Option Nat :=
  let digits := s.toList.map Text.digit?
  if s.length ≤ 3 && !digits.isEmpty && digits.all Option.isSome then
    some (digits.foldl (fun n d => 10 * n + d.getD 0) 0)
  else none

/-- `today`, `yesterday` or `tomorrow` at the head, or `this` before a part of the day. -/
def dayPhrase? : List String → Option Phrase
  | "today" :: rest => (part? rest).map (.day (.shifted 0))
  | "yesterday" :: rest => (part? rest).map (.day (.shifted (-1)))
  | "tomorrow" :: rest => (part? rest).map (.day (.shifted 1))
  | "this" :: rest => match part? rest with
    | some (some p) => some (.day (.shifted 0) (some p))
    | _ => none
  | "last" :: w :: rest => do return .day (.weekday (← weekday? w) true) (← part? rest)
  | w :: rest => do return .day (.weekday (← weekday? w) false) (← part? rest)
  | [] => none

def spanPhrase? : List String → Option Phrase
  | ["this", u] => (span? u).map .current
  | [b, u] => if isBack b then (span? u).map .previous else none
  | [b, n, d] =>
    if isBack b && (d == "day" || d == "days") then (count? n).map .lastDays else none
  | _ => none

def ofWords? : List String → Option Phrase
  | ["tonight"] => some (.day (.shifted 0) (some .night))
  | ["last", "night"] => some (.day (.shifted (-1)) (some .night))
  | [w] => match DayPart.ofName? w with
    | some p => some (.day (.shifted 0) (some p))
    | none => dayPhrase? [w]
  | ws => dayPhrase? ws <|> spanPhrase? ws

end Phrase

/-- A day, or the hours of a part of it. -/
def DateRange.ofDay (d : Date) (part : Option DayPart) : Except Fault DateRange :=
  match part with
  | none => .ok (days d d)
  | some p => make d (some d) (some p.start) (some p.stop)

/-- The day meant on a current day; a bare weekday may mean the past or the coming one. -/
def RelativeDay.on (today : Date) (preferPast : Bool) : RelativeDay → Except Fault Date
  | shifted n => today.addDays n
  | weekday w strictlyPast =>
    let now := today.weekday.index
    if strictlyPast || preferPast then
      let back := (now + 7 - w.index) % 7
      today.addDays (-(if strictlyPast && back == 0 then 7 else back : Nat))
    else today.addDays ((w.index + 7 - now) % 7 : Nat)

/-- The range that a phrase means on a current day. -/
def Phrase.on (today : Date) (preferPast : Bool) : Phrase → Except Fault DateRange
  | day d part => do DateRange.ofDay (← d.on today preferPast) part
  | current .week => return .days (← today.weekStart) today
  | current .month => .ok (.days today.monthStart today)
  | current .year => .ok (.days today.yearStart today)
  | previous .week => do
    let start ← (← today.weekStart).addDays (-7)
    return .days start (← start.addDays 6)
  | previous .month => do
    let last ← today.monthStart.addDays (-1)
    return .days last.monthStart last
  | previous .year => do
    return .days (← Date.make (today.year - 1) 1 1) (← Date.make (today.year - 1) 12 31)
  | lastDays n => do return .days (← today.addDays (1 - (max n 1 : Nat))) today

end Clipboard.Calendar
