import Clipboard.Remote.Reply
import Clipboard.Calendar.DateRange
import Clipboard.Calendar.DayPart
import Clipboard.Calendar.Iso

/-!
A model that says which days a phrase means.
-/

namespace Clipboard.Remote

open Calendar (Moment Date Time DateRange DayPart)

structure DateGuesser where
  model : String
  timeout : Option Float := some 10.0
  retries : Int := 1

/-- A range and the words to show for it. -/
structure DateGuess where
  range : DateRange
  label : String

namespace DateGuesser

def prompt (now : Moment) (phrase : String) : String :=
  "\n".intercalate [
    s!"Today is {now.date.isoText} ({now.date.weekday.name}). A user searched their clipboard history for",
    "items from: \"" ++ phrase ++ "\".",
    "",
    "Reply with JSON only:",
    "\x7b\"from\": \"YYYY-MM-DD\", \"to\": \"YYYY-MM-DD\", \"fromTime\": \"HH:MM\" or null,",
    "  \"toTime\": \"HH:MM\" or null, \"display\": \"short human label\"\x7d",
    "",
    "Rules:",
    "- Named times of day map to these hour ranges: " ++ DayPart.table ++ ".",
    "- When the range crosses midnight, \"to\" is the following calendar day.",
    "- Omit times (null) when the phrase names whole days.",
    "- Prefer dates in the past."]

/-- A day; what follows its first ten characters does not matter. -/
def readDay (v : Json) : Except Fault Date :=
  match v.chars? with
  | some cs => match Date.ofIso (.ofList ((Text.trim cs).take 10)) with
    | .ok d => .ok d
    | .error _ => .error (.badDate v)
  | none => .error (.badDate v)

/-- A time of day, or none; `24:00` is the last moment of the day. -/
def readTime : Json → Except Fault (Option Time)
  | .null => .ok none
  | .text s =>
    let t := Text.trimString s
    if s.isEmpty then .ok none
    else if t == "24:00" || t == "24:00:00" then .ok (some .endOfDay)
    else match Time.ofIso t with
      | .ok time => .ok (some time)
      | .error _ => .error (.badTime (.text s))
  | v => .error (.badTime v)

/-- The range in a reply. Without a usable label the phrase itself is shown. -/
def guessOf (phrase : String) (fields : List (String × Json)) : Except Fault DateGuess := do
  let get (key : String) : Json := (Json.lookup? key fields).getD .null
  let first ← readDay (get "from")
  let last ← readDay (if (get "to").isPresent then get "to" else get "from")
  let startTime ← readTime (get "fromTime")
  let endTime ← readTime (get "toTime")
  let label := match (get "display").chars? with
    | some cs => if Text.isBlank cs then phrase else .ofList (Text.trim cs)
    | none => phrase
  match DateRange.make first (some last) startTime endTime with
  | .ok range => return ⟨range, label⟩
  | .error f => throw (.calendar f)

/-- Asks which days a phrase means. -/
def guess (o : Outside) (g : DateGuesser) (now : Moment) (phrase : String) :
    Attempt Fault DateGuess := do
  let fields ← completeObject o
    ⟨g.model, prompt now phrase, 80, 0.0, g.retries, g.timeout⟩
  match guessOf phrase fields with
  | .ok r => return r
  | .error e => throw e

end DateGuesser

end Clipboard.Remote
