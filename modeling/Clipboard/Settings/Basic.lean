import Clipboard.Decimal.Reader

/-!
The settings of the program, by section, with the values that hold when nothing else is said.
-/

namespace Clipboard

/-- The model that is asked. -/
structure ModelSettings where
  model : String := "openai/gpt-4o-mini"
  enabled : Bool := true
  timeout : Float := 10.0
  retries : Int := 1

structure ClassifierSettings where
  /-- How much of a text is shown to the model. -/
  maxChars : Int := 1500
  /-- Texts longer than this are articles. -/
  longTextChars : Int := 300
  /-- Texts with more lines than this are notes. -/
  multiLineLines : Int := 3
  /-- A longer text that reports speech is no message. -/
  messageMaxChars : Int := 280
  codeScoreSingleLine : Int := 4
  codeScoreMultiLine : Int := 3
  /-- Whether weak evidence may tell the language of code. -/
  statisticalDetector : Bool := true
  /-- Names of programs whose text is a message, in lower case. -/
  messagingApps : List String := ["imessage", "messages", "whatsapp", "slack", "discord",
    "telegram", "signal", "teams", "messenger"]

structure DateSettings where
  /-- Whether the model may be asked about every phrase. -/
  smart : Bool := false
  preferPast : Bool := true

/-- The orders of results. -/
def sortOrders : List String := ["newest", "oldest"]

structure SearchSettings where
  /-- The share of the words of a query that a snippet has to hold. -/
  minMatchRatio : Float := 0.5
  minTermLength : Int := 3
  defaultSort : String := "newest"

structure CaptureSettings where
  debounceMillis : Int := 500

/-- Milliseconds as seconds, if floating-point numbers reach that far. -/
def secondsOfMillis? (n : Int) : Option Float := (Decimal.ofInt? n).map (· / 1000.0)

/-- How long a repetition is stopped, in seconds. -/
def CaptureSettings.window? (s : CaptureSettings) : Option Float := secondsOfMillis? s.debounceMillis

structure StorageSettings where
  path : String

/-- Where snippets are stored below a home directory. -/
def StorageSettings.defaultPath (home : String) : String := home ++ "/.snipstack/snipstack.db"

structure Settings where
  llm : ModelSettings := {}
  classifier : ClassifierSettings := {}
  dates : DateSettings := {}
  search : SearchSettings := {}
  capture : CaptureSettings := {}
  storage : StorageSettings

/-- The settings when nothing is said. -/
def Settings.default (home : String) : Settings where
  storage := ⟨StorageSettings.defaultPath home⟩

end Clipboard
