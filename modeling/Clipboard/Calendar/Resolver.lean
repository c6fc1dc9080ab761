import Clipboard.Calendar.Phrase
import Clipboard.Remote.Dates

/-!
From a phrase to a range of days: first the phrases that are known, then a parser of dates over
the whole phrase and over its pieces, and last, if wanted, a model.
-/

namespace Clipboard.Calendar

open Remote (Outside Attempt DateGuesser Found ParserSettings)

structure Resolver where
  /-- Answers when nothing else does, in relaxed mode only. -/
  guesser : Option DateGuesser := none
  /-- Whether a bare weekday means the past one. -/
  preferPast : Bool := true

inductive Strategy
  | phraseTable | parser | remote
  deriving DecidableEq, Repr

def Strategy.name : Strategy → String
  | phraseTable => "phrase-table"
  | parser => "parser"
  | remote => "remote"

/-- What became of a phrase. -/
inductive Resolution
  | found (range : DateRange) (label : String) (strategy : Strategy)
  | unresolved (label : String)

inductive ResolveFault
  | calendar (f : Fault)
  /-- A part of the day whose name does not lower to a known one. -/
  | dayPart (name : String)

def ResolveFault.message : ResolveFault → String
  | calendar f => f.message
  | dayPart name => Text.quotedString name

namespace Resolver

/-- What the parser is told when it is asked at a moment. -/
def parserSettings (r : Resolver) (now : Moment) : ParserSettings := ⟨now.bare, r.preferPast⟩

/-- A phrase with a capital first letter, and the range behind it. -/
def labelOf (phrase : List Char) (r : DateRange) : String :=
  .ofList (Text.upper (phrase.take 1) ++ phrase.drop 1) ++ s!" ({r.display})"

/-- Words that join the two ends of a range. -/
def isJoint (w : String) : Bool :=
  ["and", "to", "through", "thru", "until", "till", "-", "–", "&"].contains w

/-- The pieces between joints. A joint stands between two words of which the first is not itself
the word behind a joint's place. -/
def piecesFrom : List String → List String → List (List String)
  | piece, [] => [piece.reverse]
  | piece, [w] => [(w :: piece).reverse]
  | piece, w :: v :: rest =>
    if !piece.isEmpty && isJoint w then piece.reverse :: piecesFrom [v] rest
    else piecesFrom (w :: piece) (v :: rest)

def pieces (words : List String) : List String :=
  (piecesFrom [] words).map (" ".intercalate ·)

/-- The dates in the phrase; fewer than two in the whole give way to two or more in its pieces. -/
def datesIn (o : Outside) (k : ParserSettings) (words : List String) :
    Remote.Consult (List Found) := do
  let found ← o.findDates k (" ".intercalate words)
  let parts := pieces words
  if found.length < 2 && 1 < parts.length then
    let fromParts := (← parts.mapM (o.findDates k)).flatten
    return if 1 < fromParts.length then fromParts else found
  else return found

/-- The range that a single moment stands for: the hours of a part of its day, or its hour, week,
month, year or day. -/
def rangeFor (m : Moment) (period : Option String) (part : Option DayPart) :
    Except Fault DateRange :=
  match part, period with
  | some p, _ => DateRange.ofDay m.date (some p)
  | none, some "time" =>
    DateRange.make m.date (some m.date) (some m.time.hourStart) (some m.time.hourEnd)
  | none, some "week" => do
    let monday ← m.date.weekStart
    return .days monday (← monday.addDays 6)
  | none, some "month" => .ok (.days m.date.monthStart m.date.monthEnd)
  | none, some "year" => .ok (.days m.date.yearStart m.date.yearEnd)
  | none, _ => .ok (.days m.date m.date)

/-- The earliest and the latest of some days. -/
def span (d : Date) (ds : List Date) : Date × Date :=
  ds.foldl (fun (lo, hi) e => (if e < lo then e else lo, if hi < e then e else hi)) (d, d)

def onCalendar {α : Type} : Except Fault α → Attempt ResolveFault α
  | .ok a => pure a
  | .error f => throw (.calendar f)

/-- What the parser's dates come to. -/
def byParser (o : Outside) (k : ParserSettings) (words : List String) :
    Attempt ResolveFault (Option DateRange) := do
  match ← datesIn o k words with
  | [] => return none
  | found@((text, moment) :: others) =>
    let part ← match DayPart.mentioned (" ".intercalate words).toList with
      | .ok p => pure p
      | .error name => throw (.dayPart name)
    if others.isEmpty then
      let period ← o.findPeriod k text
      return some (← onCalendar (rangeFor moment period part))
    else
      let (first, last) := span moment.date (found.map (·.2.date))
      return some (← onCalendar
        (DateRange.make first (some last) (part.map (·.start)) (part.map (·.stop))))

/-- The days that a phrase means. -/
def resolve (o : Outside) (r : Resolver) (now : Moment) (phrase : String) (relaxed : Bool := false) :
    Attempt ResolveFault Resolution := do
  let words := Phrase.wordsOf phrase.toList
  let unresolved : Resolution := .unresolved (Text.trimString phrase)
  if words.isEmpty then return unresolved
  let cleaned := " ".intercalate words
  let label := labelOf cleaned.toList
  match Phrase.ofWords? words with
  | some p =>
    let range ← onCalendar (p.on now.date r.preferPast)
    return .found range (label range) .phraseTable
  | none =>
    match ← byParser o (r.parserSettings now) words with
    | some range => return .found range (label range) .parser
    | none =>
      match if relaxed then r.guesser else none with
      | none => return unresolved
      | some g =>
        match ← (g.guess o now cleaned).run with
        | .ok answer => return .found answer.range answer.label .remote
        | .error _ => return unresolved

end Resolver

end Clipboard.Calendar
