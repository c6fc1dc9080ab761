import Clipboard.Proofs.Fallible
import Clipboard.Proofs.Settings.Overlay

/-!
The single settings, each with its section, its key, its conversion and its default. A value that
cannot be converted breaks no rule of the settings.
-/

namespace Clipboard

namespace Settings

open Fallible

/-! ## The table of settings -/

inductive Section
  | llm
  | classifier
  | dates
  | search
  | capture
  | storage
  deriving DecidableEq

def Section.name : Section → String
  | llm => "llm"
  | classifier => "classifier"
  | dates => "dates"
  | search => "search"
  | capture => "capture"
  | storage => "storage"

/-- What a value is converted to. -/
inductive Conversion
  | whole
  | real
  | yesNo
  | text
  | names

abbrev Conversion.Result : Conversion → Type
  | whole => Int
  | real => Float
  | yesNo => Bool
  | text => String
  | names => List String

/-- The conversion of a value; an empty value of names stands for the default ones. -/
def Conversion.apply : (c : Conversion) → c.Result → Value → Except Fault c.Result
  | whole, _, v => (toWhole v).mapError .convert
  | real, _, v => (toReal v).mapError .convert
  | yesNo, _, v => .ok (toBool v)
  | text, _, v => (toText v).mapError .convert
  | names, default, v => messagingAppsOf (some v) default

inductive Setting
  | model
  | enabled
  | timeout
  | retries
  | maxChars
  | longTextChars
  | multiLineLines
  | messageMaxChars
  | codeScoreSingleLine
  | codeScoreMultiLine
  | statisticalDetector
  | messagingApps
  | smart
  | preferPast
  | minMatchRatio
  | minTermLength
  | defaultSort
  | debounceMillis
  | path
  deriving DecidableEq

namespace Setting

def place : Setting → Section
  | model | enabled | timeout | retries => .llm
  | maxChars | longTextChars | multiLineLines | messageMaxChars | codeScoreSingleLine
  | codeScoreMultiLine | statisticalDetector | messagingApps => .classifier
  | smart | preferPast => .dates
  | minMatchRatio | minTermLength | defaultSort => .search
  | debounceMillis => .capture
  | path => .storage

def key : Setting → String
  | model => "model"
  | enabled => "enabled"
  | timeout => "timeout"
  | retries => "num_retries"
  | maxChars => "max_chars"
  | longTextChars => "long_text_chars"
  | multiLineLines => "multi_line_lines"
  | messageMaxChars => "message_max_chars"
  | codeScoreSingleLine => "code_score_single_line"
  | codeScoreMultiLine => "code_score_multi_line"
  | statisticalDetector => "statistical_detector"
  | messagingApps => "messaging_apps"
  | smart => "smart"
  | preferPast => "prefer_past"
  | minMatchRatio => "min_match_ratio"
  | minTermLength => "min_term_length"
  | defaultSort => "default_sort"
  | debounceMillis => "debounce_ms"
  | path => "path"

abbrev conversion : Setting → Conversion
  | model | defaultSort | path => .text
  | enabled | statisticalDetector | smart | preferPast => .yesNo
  | timeout | minMatchRatio => .real
  | retries | maxChars | longTextChars | multiLineLines | messageMaxChars | codeScoreSingleLine
  | codeScoreMultiLine | minTermLength | debounceMillis => .whole
  | messagingApps => .names

def get (s : Settings) : (x : Setting) → x.conversion.Result
  | model => s.llm.model
  | enabled => s.llm.enabled
  | timeout => s.llm.timeout
  | retries => s.llm.retries
  | maxChars => s.classifier.maxChars
  | longTextChars => s.classifier.longTextChars
  | multiLineLines => s.classifier.multiLineLines
  | messageMaxChars => s.classifier.messageMaxChars
  | codeScoreSingleLine => s.classifier.codeScoreSingleLine
  | codeScoreMultiLine => s.classifier.codeScoreMultiLine
  | statisticalDetector => s.classifier.statisticalDetector
  | messagingApps => s.classifier.messagingApps
  | smart => s.dates.smart
  | preferPast => s.dates.preferPast
  | minMatchRatio => s.search.minMatchRatio
  | minTermLength => s.search.minTermLength
  | defaultSort => s.search.defaultSort
  | debounceMillis => s.capture.debounceMillis
  | path => s.storage.path

/-- The value of a setting, from what stands under its key if anything does. -/
def valueOf (home : String) (x : Setting) (given : Option Value) :
    Except Fault x.conversion.Result :=
  let default := x.get (Settings.default home)
  given.elim (.ok default) (x.conversion.apply default)

end Setting

/-! ## Faults of values -/

section

variable {f : Fault}

theorem not_isRule_of_mapError {α : Type} {c : Except ConvertFault α}
    (h : c.mapError .convert = .error f) : f.isRule = false := by
  cases c with
  | ok a => cases h
  | error e =>
      cases h
      rfl

theorem not_isRule_of_keysOf {v : Value} (h : keysOf v = .error f) : f.isRule = false := by
  unfold keysOf at h
  split at h
  all_goals
    cases h
    try rfl

theorem not_isRule_of_messagingAppsOf {v : Option Value} {default : List String}
    (h : messagingAppsOf v default = .error f) : f.isRule = false := by
  cases v with
  | none => cases h
  | some v =>
      simp only [messagingAppsOf] at h
      split at h
      · rcases bind_eq_error_iff.mp h with h | ⟨keys, -, h⟩
        · exact not_isRule_of_keysOf h
        · rcases bind_eq_error_iff.mp h with h | ⟨_, -, h⟩
          · obtain ⟨a, -, ha⟩ := exists_of_mapM_eq_error h
            exact not_isRule_of_mapError ha
          · cases h
      · cases h

theorem Conversion.not_isRule_of_apply {c : Conversion} {default : c.Result} {v : Value}
    (h : c.apply default v = .error f) : f.isRule = false := by
  cases c with
  | whole => exact not_isRule_of_mapError h
  | real => exact not_isRule_of_mapError h
  | yesNo => cases h
  | text => exact not_isRule_of_mapError h
  | names =>
      change messagingAppsOf (some v) default = .error f at h
      exact not_isRule_of_messagingAppsOf h

theorem Setting.not_isRule_of_valueOf {home : String} {x : Setting} {given : Option Value}
    (h : x.valueOf home given = .error f) : f.isRule = false := by
  cases given with
  | none => cases h
  | some v => exact Conversion.not_isRule_of_apply h

end

end Settings

end Clipboard
