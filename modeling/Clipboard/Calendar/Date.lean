import Clipboard.Calendar.Fault
import Clipboard.Decimal.Fixed

/-!
Days of the Gregorian calendar in the years 1 to 9999, counted from the first day of year 1.
-/

namespace Clipboard.Calendar

def isLeap (y : Nat) : Bool := y % 4 == 0 && (y % 100 != 0 || y % 400 == 0)

def daysInMonth (y m : Nat) : Nat :=
  if m == 2 then (if isLeap y then 29 else 28)
  else if m == 4 || m == 6 || m == 9 || m == 11 then 30
  else 31

/-- The days of the years before `y`. -/
def daysBeforeYear (y : Nat) : Nat :=
  365 * (y - 1) + (y - 1) / 4 - (y - 1) / 100 + (y - 1) / 400

/-- The days of the months of year `y` before month `m`. -/
def daysBeforeMonth (y m : Nat) : Nat :=
  -- The zero is named because a sum could start from another one.
  @List.sum Nat _ Zero.ofOfNat0 ((List.range (m - 1)).map fun i => daysInMonth y (i + 1))

inductive Weekday
  | monday | tuesday | wednesday | thursday | friday | saturday | sunday
  deriving DecidableEq, Repr

namespace Weekday

def all : List Weekday := [monday, tuesday, wednesday, thursday, friday, saturday, sunday]

/-- Days since Monday. -/
def index : Weekday → Nat
  | monday => 0
  | tuesday => 1
  | wednesday => 2
  | thursday => 3
  | friday => 4
  | saturday => 5
  | sunday => 6

def name : Weekday → String
  | monday => "Monday"
  | tuesday => "Tuesday"
  | wednesday => "Wednesday"
  | thursday => "Thursday"
  | friday => "Friday"
  | saturday => "Saturday"
  | sunday => "Sunday"

def ofIndex (n : Nat) : Weekday :=
  match n % 7 with
  | 0 => monday
  | 1 => tuesday
  | 2 => wednesday
  | 3 => thursday
  | 4 => friday
  | 5 => saturday
  | _ => sunday

end Weekday

structure Date where
  year : Nat
  month : Nat
  day : Nat
  year_range : 1 ≤ year ∧ year ≤ 9999
  month_range : 1 ≤ month ∧ month ≤ 12
  day_range : 1 ≤ day ∧ day ≤ daysInMonth year month
  deriving DecidableEq

namespace Date

/-- The day with these numbers, if the calendar has it. -/
def make (y m d : Nat) : Except Fault Date :=
  if hy : 1 ≤ y ∧ y ≤ 9999 then
    if hm : 1 ≤ m ∧ m ≤ 12 then
      if hd : 1 ≤ d ∧ d ≤ daysInMonth y m then .ok ⟨y, m, d, hy, hm, hd⟩
      else .error .day
    else .error .month
  else .error (.year y)

/-- The first day of year 1 has number 1. -/
def dayNumber (d : Date) : Nat := daysBeforeYear d.year + daysBeforeMonth d.year d.month + d.day

/-- The year that holds day `n`. -/
def yearOf (n : Nat) : Nat :=
  let y := (n - 1) * 400 / 146097 + 1
  if n ≤ daysBeforeYear y then y - 1
  else if daysBeforeYear (y + 1) < n then y + 1
  else y

/-- The month and day of the month of a day counted from the first of month `m`; `fuel` bounds
the months passed. -/
def monthAndDay (y : Nat) : Nat → Nat → Nat → Nat × Nat
  | 0, m, d => (m, d)
  | fuel + 1, m, d =>
    if d ≤ daysInMonth y m then (m, d) else monthAndDay y fuel (m + 1) (d - daysInMonth y m)

/-- The day with this number. -/
def ofDayNumber (n : Int) : Except Fault Date :=
  if n ≤ 0 then .error .outOfRange
  else
    let y := yearOf n.toNat
    let (m, d) := monthAndDay y 11 1 (n.toNat - daysBeforeYear y)
    match make y m d with
    | .ok date => .ok date
    | .error _ => .error .outOfRange

def addDays (d : Date) (n : Int) : Except Fault Date := ofDayNumber (d.dayNumber + n)

def weekday (d : Date) : Weekday := .ofIndex (d.dayNumber + 6)

instance : LE Date := ⟨fun a b => a.dayNumber ≤ b.dayNumber⟩

instance : LT Date := ⟨fun a b => a.dayNumber < b.dayNumber⟩

instance (a b : Date) : Decidable (a ≤ b) := inferInstanceAs (Decidable (a.dayNumber ≤ b.dayNumber))

instance (a b : Date) : Decidable (a < b) := inferInstanceAs (Decidable (a.dayNumber < b.dayNumber))

theorem one_le_daysInMonth (y m : Nat) : 1 ≤ daysInMonth y m := by
  unfold daysInMonth
  repeat' split
  all_goals decide

/-- The first day of the month. -/
def monthStart (d : Date) : Date :=
  ⟨d.year, d.month, 1, d.year_range, d.month_range, Nat.le_refl 1, one_le_daysInMonth _ _⟩

/-- The last day of the month. -/
def monthEnd (d : Date) : Date :=
  ⟨d.year, d.month, daysInMonth d.year d.month, d.year_range, d.month_range,
    one_le_daysInMonth _ _, Nat.le_refl _⟩

/-- The first day of the year. -/
def yearStart (d : Date) : Date :=
  ⟨d.year, 1, 1, d.year_range, by decide, Nat.le_refl 1, one_le_daysInMonth _ _⟩

/-- The last day of the year. -/
def yearEnd (d : Date) : Date :=
  ⟨d.year, 12, 31, d.year_range, by decide, by decide, Nat.le_refl 31⟩

/-- The Monday on or before the day. -/
def weekStart (d : Date) : Except Fault Date := d.addDays (-(d.weekday.index : Int))

def monthNames : List String :=
  ["Jan", "Feb", "Mar", "Apr", "May", "Jun", "Jul", "Aug", "Sep", "Oct", "Nov", "Dec"]

/-- The day for people, such as `May 1, 2024`. -/
def display (d : Date) : String :=
  (monthNames[d.month - 1]?).getD "" ++ s!" {d.day}, {d.year}"

/-- The day as `2024-05-01`. -/
def isoText (d : Date) : String :=
  Decimal.padded 4 d.year ++ "-" ++ Decimal.padded 2 d.month ++ "-" ++ Decimal.padded 2 d.day

end Date

end Clipboard.Calendar
