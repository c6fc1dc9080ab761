import Clipboard.Calendar.Moment
import Clipboard.Json.Inspect
import Clipboard.Decimal.Reader

/-!
The outside that is consulted: a language model and a parser of dates. What is asked is kept in a
transcript, and an answer may depend on what was asked before.
-/

namespace Clipboard.Remote

/-- One message to a model, with the limits of the call. -/
structure Request where
  model : String
  prompt : String
  maxTokens : Int := 256
  temperature : Float := 0.0
  retries : Int := 1
  timeout : Option Float := none

inductive Reply
  | content (text : Option String)
  /-- The call failed: the kind of failure and its message. -/
  | failure (kind message : String)
  /-- The model gave no answer at all. -/
  | nothing

/-- A day or moment found in a text, with the part of the text that names it. -/
abbrev Found := String × Calendar.Moment

/-- What the parser of dates is told. -/
structure ParserSettings where
  /-- The moment that `yesterday` and the like are told from. It has no offset. -/
  base : Calendar.Moment
  /-- Whether a date that may lie on either side of the base is past. -/
  preferPast : Bool

/-- A model and a parser of dates that are not part of the program. The parser may fail, with a
message. -/
structure Outside where
  /-- The reply to a request after the earlier ones. -/
  reply : List Request → Request → Reply
  /-- The dates that the parser finds in a text, if it finds any. -/
  search : ParserSettings → String → Except String (Option (List Found))
  /-- The length of time that the parser says a text names, if it names one. -/
  period : ParserSettings → String → Except String (Option String)

/-- What the outside was asked, in order. -/
structure Transcript where
  requests : List Request := []
  searched : List String := []
  periods : List String := []

/-- A computation that may consult the outside. -/
abbrev Consult := StateM Transcript

/-- A computation that may consult the outside and fail. -/
abbrev Attempt (ε : Type) := ExceptT ε Consult

namespace Outside

def ask (o : Outside) (r : Request) : Consult Reply := fun t =>
  (o.reply t.requests r, { t with requests := t.requests ++ [r] })

/-- The dates in a text. Where the parser fails there are none. -/
def datesOf (o : Outside) (k : ParserSettings) (s : String) : List Found :=
  match o.search k s with
  | .ok found => found.getD []
  | .error _ => []

/-- The length of time that a text names. Where the parser fails there is none. -/
def periodOf (o : Outside) (k : ParserSettings) (s : String) : Option String :=
  match o.period k s with
  | .ok name => name
  | .error _ => none

def findDates (o : Outside) (k : ParserSettings) (s : String) : Consult (List Found) := fun t =>
  (o.datesOf k s, { t with searched := t.searched ++ [s] })

def findPeriod (o : Outside) (k : ParserSettings) (s : String) : Consult (Option String) := fun t =>
  (o.periodOf k s, { t with periods := t.periods ++ [s] })

end Outside

/-! ## Faults -/

inductive Fault
  /-- The call itself failed. -/
  | call (kind message : String)
  | empty
  /-- No object stands in the reply, whose start is given. -/
  | noObject (start : String)
  | malformed (detail : String)
  | noTags
  | disabled
  | badTime (v : Json)
  | badDate (v : Json)
  /-- A whole number of the reply has too many digits. -/
  | longNumber (digits : Nat)
  /-- The reply is nested too deep. -/
  | tooDeep
  /-- The stated confidence exceeds all floating-point numbers. -/
  | hugeConfidence
  | calendar (f : Calendar.Fault)

/-- Whether the fault says that the reply is unusable, as callers expect of a model. -/
def Fault.isExpected : Fault → Bool
  | longNumber _ | tooDeep | hugeConfidence | calendar _ => false
  | _ => true

def Fault.message : Fault → String
  | call kind message => s!"{kind}: {message}"
  | empty => "empty response"
  | noObject start => "no JSON object in response: " ++ Text.quotedString start
  | malformed detail => "malformed JSON in response: " ++ detail
  | noTags => "response has no tags"
  | disabled => "remote classifier disabled"
  | badTime v => "bad time value: " ++ v.inspect
  | badDate v => "bad date value: " ++ v.inspect
  | longNumber digits => Decimal.tooLongMessage digits
  | tooDeep => "maximum recursion depth exceeded"
  | hugeConfidence => "int too large to convert to float"
  | calendar f => f.message

end Clipboard.Remote
