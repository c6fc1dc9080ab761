import Clipboard.Calendar.Fault
import Clipboard.Decimal.Fixed

/-!
Times of day to the microsecond, with or without an offset from universal time.
-/

namespace Clipboard.Calendar

/-- Less than a day ahead of or behind universal time. -/
structure Offset where
  micros : Int
  range : -86400000000 < micros ∧ micros < 86400000000
  deriving DecidableEq

namespace Offset

def make (micros : Int) : Except Fault Offset :=
  if h : -86400000000 < micros ∧ micros < 86400000000 then .ok ⟨micros, h⟩
  else .error (.offset micros)

/-- The offset as `+02:00`, with seconds and microseconds only where there are any. -/
def isoText (o : Offset) : String :=
  let n := o.micros.natAbs
  let two := Decimal.padded 2
  (if o.micros < 0 then "-" else "+") ++ two (n / 3600000000) ++ ":" ++ two (n / 60000000 % 60)
    ++ (if n % 60000000 == 0 then "" else ":" ++ two (n / 1000000 % 60))
    ++ if n % 1000000 == 0 then "" else "." ++ Decimal.padded 6 (n % 1000000)

end Offset

structure Time where
  hour : Nat
  minute : Nat
  second : Nat
  micro : Nat
  offset : Option Offset
  range : hour < 24 ∧ minute < 60 ∧ second < 60 ∧ micro < 1000000
  deriving DecidableEq

namespace Time

def make (h m s micro : Nat) (offset : Option Offset) : Except Fault Time :=
  if hh : h < 24 then
    if hm : m < 60 then
      if hs : s < 60 then
        if hu : micro < 1000000 then .ok ⟨h, m, s, micro, offset, hh, hm, hs, hu⟩
        else .error .micro
      else .error .second
    else .error .minute
  else .error .hour

def midnight : Time := ⟨0, 0, 0, 0, none, by decide⟩

/-- The last microsecond of a day. -/
def endOfDay : Time := ⟨23, 59, 59, 999999, none, by decide⟩

/-- A full hour. -/
def ofHour (h : Fin 24) : Time := ⟨h, 0, 0, 0, none, h.isLt, by decide, by decide, by decide⟩

/-- The start of the hour that holds the time. -/
def hourStart (t : Time) : Time :=
  ⟨t.hour, 0, 0, 0, none, t.range.1, by decide, by decide, by decide⟩

/-- The last microsecond of the hour that holds the time. -/
def hourEnd (t : Time) : Time :=
  ⟨t.hour, 59, 59, 999999, none, t.range.1, by decide, by decide, by decide⟩

/-- The time without its offset. -/
def bare (t : Time) : Time := { t with offset := none }

/-- Microseconds since midnight. -/
def micros (t : Time) : Nat := ((t.hour * 60 + t.minute) * 60 + t.second) * 1000000 + t.micro

/-- Microseconds since midnight of universal time; an offset counts in whole seconds here. -/
def universal (t : Time) : Int :=
  t.micros - (t.offset.map fun o => o.micros.fdiv 1000000 * 1000000).getD 0

/-- Whether `a` is earlier than `b`; only times that both have an offset or both have none can be
compared. -/
def before (a b : Time) : Except Fault Bool :=
  if a.offset.isSome != b.offset.isSome then .error .mixedOffsets
  else .ok (a.universal < b.universal)

/-- Whether `a` is no later than `b`. -/
def upTo (a b : Time) : Except Fault Bool :=
  if a.offset.isSome != b.offset.isSome then .error .mixedOffsets
  else .ok (a.universal ≤ b.universal)

/-- The same time of day; with offsets, the same universal time of day. -/
def same (a b : Time) : Bool :=
  a.offset.isSome == b.offset.isSome && a.universal == b.universal

/-- Hours and minutes; the last microsecond of a day is `24:00`. -/
def display (t : Time) : String :=
  if t.same endOfDay then "24:00" else Decimal.padded 2 t.hour ++ ":" ++ Decimal.padded 2 t.minute

/-- The time as `22:00:00`, with microseconds and offset only where there are any. -/
def isoText (t : Time) : String :=
  let two := Decimal.padded 2
  two t.hour ++ ":" ++ two t.minute ++ ":" ++ two t.second
    ++ (if t.micro == 0 then "" else "." ++ Decimal.padded 6 t.micro)
    ++ (t.offset.map (·.isoText)).getD ""

end Time

end Clipboard.Calendar
