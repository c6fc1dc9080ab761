import Clipboard.Calendar.Moment
import Clipboard.Text.CodePoint

/-!
Reading days, times and moments in the forms of the ISO standard: with or without separators,
days of the month or of a week, decimal fractions, offsets.
-/

namespace Clipboard.Calendar

/-- A number of exactly `n` digits. -/
def readDigits? (n : Nat) (cs : List Char) : Option (Nat × List Char) :=
  let digits := cs.take n
  if digits.length == n && digits.all Char.isDigit then
    some (digits.foldl (fun v c => 10 * v + (c.toNat - 48)) 0, cs.drop n)
  else none

/-! ## Days -/

/-- Monday of the first week of a year, the week that holds its first Thursday. -/
def firstWeek (y : Nat) : Nat :=
  let first := daysBeforeYear y + 1
  let weekday := (first + 6) % 7
  if 3 < weekday then first + 7 - weekday else first - weekday

/-- Whether the year has a week 53. -/
def hasLongYear (y : Nat) : Bool :=
  let weekday := (daysBeforeYear y + 7) % 7
  weekday == 3 || (weekday == 2 && isLeap y)

/-- A day given by year, week and day of the week. -/
def weekDate? (y w d : Nat) : Option (Except Fault Date) :=
  if w == 0 || 53 < w || (w == 53 && !hasLongYear y) || d == 0 || 7 < d then none
  else if y == 0 then some (.error .month)
  else
    let n := firstWeek y + (w - 1) * 7 + (d - 1)
    some (if daysBeforeYear 10000 < n then .error (.year 10000) else Date.ofDayNumber n)

/-- A day; `none` if the text begins with none of the forms. -/
def readDate? (cs : List Char) : Option (Except Fault Date) := do
  let (y, rest) ← readDigits? 4 cs
  let dashed := rest.head? == some '-'
  let rest := if dashed then rest.drop 1 else rest
  /- the text behind the separator between two numbers -/
  let gap (cs : List Char) : Option (List Char) :=
    if dashed then (if cs.head? == some '-' then some (cs.drop 1) else none) else some cs
  match rest with
  | 'W' :: rest =>
    let (w, rest) ← readDigits? 2 rest
    if rest.isEmpty then weekDate? y w 1
    else
      let (d, _) ← readDigits? 1 (← gap rest)
      weekDate? y w d
  | _ =>
    let (m, rest) ← readDigits? 2 rest
    let (d, _) ← readDigits? 2 (← gap rest)
    some (Date.make y m d)

/-- The day that a text of seven, eight or ten bytes begins with. -/
def Date.ofIso (s : String) : Except Fault Date :=
  let n := s.utf8ByteSize
  if n == 7 || n == 8 || n == 10 then (readDate? s.toList).getD (.error (.unreadable s))
  else .error (.unreadable s)

/-! ## Times -/

/-- Hours, minutes, seconds and microseconds as read, not yet checked. -/
structure ClockFields where
  hour : Nat
  minute : Nat := 0
  second : Nat := 0
  micro : Nat := 0

/-- What follows a two-digit number: another one, a fraction, or nothing sensible. -/
inductive AfterNumber
  | number (rest : List Char)
  | fraction (rest : List Char)
  | nothing

/-- `colons` says whether the numbers are separated. -/
def afterNumber (colons : Bool) : List Char → AfterNumber
  | [] => .nothing
  | c :: cs =>
    if colons && c == ':' then .number cs
    else if c == '.' || c == ',' then .fraction cs
    else if colons then .nothing
    else .number (c :: cs)

/-- Whether a time may end here: at the end of the text or at a NUL character. -/
def isEnd (cs : List Char) : Bool := cs.head?.all (· == '\x00')

/-- Digits of a fraction as microseconds, and whether nothing else follows; digits beyond the
sixth are dropped. -/
def readFraction? (cs : List Char) : Option (Nat × Bool) := do
  let n := min 6 cs.length
  let (v, rest) ← readDigits? n cs
  return (v * 10 ^ (6 - n), isEnd (rest.dropWhile Char.isDigit))

/-- Nothing, or a single ASCII character, is left. -/
def isSpent : List Char → Bool
  | [] => true
  | [c] => c.toNat < 128
  | _ => false

/-- The numbers of a time, and whether the text is used up. One character may be left over. -/
def readFields? (cs : List Char) : Option (ClockFields × Bool) := do
  let (h, rest) ← readDigits? 2 cs
  if isSpent rest then return (⟨h, 0, 0, 0⟩, isEnd rest)
  let colons := rest.head? == some ':'
  match afterNumber colons rest with
  | .nothing => none
  | .fraction q => let (u, whole) ← readFraction? q; return (⟨h, 0, 0, u⟩, whole)
  | .number rest =>
    let (m, rest) ← readDigits? 2 rest
    if isSpent rest then return (⟨h, m, 0, 0⟩, isEnd rest)
    match afterNumber colons rest with
    | .nothing => none
    | .fraction q => let (u, whole) ← readFraction? q; return (⟨h, m, 0, u⟩, whole)
    | .number rest =>
      let (s, rest) ← readDigits? 2 rest
      if isSpent rest then return (⟨h, m, s, 0⟩, isEnd rest)
      match afterNumber colons rest with
      | .nothing => none
      | .fraction q | .number q => let (u, whole) ← readFraction? q; return (⟨h, m, s, u⟩, whole)

def isZoneMark (c : Char) : Bool := c == '+' || c == '-' || c == 'Z'

/-- The offset behind the time. Less than a second counts as none. -/
def readZone? : List Char → Option (Except Fault Offset)
  | [] => none
  | 'Z' :: rest => if isEnd rest then some (Offset.make 0) else none
  | c :: rest => do
    let (f, whole) ← readFields? rest
    if whole then
      let seconds := (f.hour * 60 + f.minute) * 60 + f.second
      let n : Int := if seconds == 0 then 0 else seconds * 1000000 + f.micro
      some (Offset.make (if c == '-' then -n else n))
    else none

/-- A time as read: its numbers and its offset. -/
def readClock? (cs : List Char) : Option (ClockFields × Option (Except Fault Offset)) := do
  let (f, whole) ← readFields? (cs.takeWhile (!isZoneMark ·))
  match cs.dropWhile (!isZoneMark ·) with
  | [] => if whole then some (f, none) else none
  | zone => return (f, some (← readZone? zone))

def ClockFields.toTime (f : ClockFields) (offset : Option Offset) : Except Fault Time :=
  Time.make f.hour f.minute f.second f.micro offset

/-- An offset that is there has to be a sensible one. -/
def checkOffset : Option (Except Fault Offset) → Except Fault (Option Offset)
  | none => .ok none
  | some (.ok o) => .ok (some o)
  | some (.error e) => .error e

/-- The time that the whole text is; a `T` may stand before it. -/
def Time.ofIso (s : String) : Except Fault Time :=
  let cs := s.toList
  let cs := if cs.head? == some 'T' then cs.drop 1 else cs
  match readClock? cs with
  | none => .error (.unreadable s)
  | some (f, zone) => do f.toTime (← checkOffset zone)

/-! ## Moments -/

/-- How many characters of a moment belong to its day. Any character may stand between day and
time, so for days of a week the digits have to be counted. -/
def dateLength (cs : List Char) : Nat :=
  let is (i : Nat) (c : Char) : Bool := cs[i]? == some c
  let n := cs.length
  if n == 7 then 7
  else if is 4 '-' then
    if is 5 'W' then
      if is 8 '-' && n != 9 then (if (cs[10]?).any Char.isDigit then 8 else 10) else 8
    else 10
  else if is 4 'W' then
    let run := 7 + ((cs.drop 7).takeWhile Char.isDigit).length
    if run < 9 then run else if run % 2 == 0 then 7 else 8
  else 8

/-- The moment that the whole text is; a day alone is its midnight. -/
def Moment.ofIso (s : String) : Except Fault Moment :=
  let cs := s.toList
  let k := dateLength cs
  match readDate? (cs.take k) with
  | none => .error (.unreadable s)
  | some date =>
    if cs.length ≤ k then do return ⟨← date, .midnight⟩
    else match readClock? (cs.drop (k + 1)) with
      | none => .error (.unreadable s)
      | some (f, zone) => do
        let offset ← checkOffset zone
        return ⟨← date, ← f.toTime offset⟩

/-- The places at which a day can be separated from a time. -/
def separatorPlaces : List Nat := [7, 8, 10]

/-- The moment that code points are. Between day and time a half of a pair may stand alone, as any
character may. -/
def Moment.ofPoints? (ps : List Text.CodePoint) : Option Moment :=
  let separated := match separatorPlaces.find? fun i => (ps[i]?).any (·.char?.isNone) with
    | some i => ps.set i (.char 'T')
    | none => ps
  (Text.CodePoint.chars? separated).bind fun cs => (Moment.ofIso (.ofList cs)).toOption

end Clipboard.Calendar
