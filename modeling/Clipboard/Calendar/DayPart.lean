import Clipboard.Calendar.Time
import Clipboard.Pattern.Forms
import Clipboard.Text.Case

/-!
Named parts of the day. A part that ends before it starts runs past midnight into the next day.
-/

namespace Clipboard.Calendar

inductive DayPart
  | midnight | afternoon | morning | evening | night | noon
  deriving DecidableEq, Repr

namespace DayPart

/-- Longer names come before names that they hold. -/
def all : List DayPart := [midnight, afternoon, morning, evening, night, noon]

def name : DayPart → String
  | midnight => "midnight"
  | afternoon => "afternoon"
  | morning => "morning"
  | evening => "evening"
  | night => "night"
  | noon => "noon"

def start : DayPart → Time
  | midnight => .ofHour 0
  | afternoon => .ofHour 12
  | morning => .ofHour 5
  | evening => .ofHour 18
  | night => .ofHour 22
  | noon => .ofHour 12

def stop : DayPart → Time
  | midnight => .ofHour 1
  | afternoon => .ofHour 18
  | morning => .ofHour 12
  | evening => .endOfDay
  | night => .ofHour 4
  | noon => .ofHour 13

/-- Whether the part runs past midnight. -/
def wraps (p : DayPart) : Bool := p.stop.micros < p.start.micros

def ofName? (s : String) : Option DayPart := all.find? (·.name == s)

/-- A part's name as a word of its own, which is held. -/
def mention : Pattern :=
  open Pattern in wordEdge ++ hold (anyCaseOf (all.map name)) ++ wordEdge

/-- The first part that the text mentions. A mention that does not lower to a name, for instance
with a dotless i, is an error that gives the lowered text. -/
def mentioned (cs : List Char) : Except String (Option DayPart) :=
  match mention.search? cs with
  | none => .ok none
  | some (_, l) =>
    let key : String := .ofList (Text.lower l.held)
    match ofName? key with
    | some p => .ok (some p)
    | none => .error key

/-- The part with its hours. -/
def display (p : DayPart) : String :=
  p.name ++ " " ++ p.start.display ++ "-" ++ p.stop.display ++ if p.wraps then " (next day)" else ""

/-- All parts with their hours. -/
def table : String := ", ".intercalate (all.map display)

end DayPart

end Clipboard.Calendar
