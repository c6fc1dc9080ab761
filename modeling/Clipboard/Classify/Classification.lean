import Clipboard.Classify.Rule
import Clipboard.Classify.Tags
import Clipboard.Code.Evidence
import Clipboard.Code.Rubric
import Clipboard.Code.Signatures
import Clipboard.Remote.Labeller
import Clipboard.Shape.Color

/-!
What a text is: a colour, an address, what a model says, or what the rules say, in this order.
Then plain text may turn out to be a message, and two tags are made sure of.
-/

namespace Clipboard

open Text

open Remote (Outside Consult Labeller Labels)

/-- What decided. -/
inductive Reason
  | color | link | model | looksLikeCode
  | rule (r : Rule)
  /-- No rule held. -/
  | nothing
  deriving DecidableEq, Repr

def Reason.name : Reason → String
  | color => "color"
  | link => "url"
  | model => "remote"
  | looksLikeCode => "fallback:looks-like-code"
  | rule r => "fallback:" ++ r.name
  | nothing => "fallback:default"

structure Classification where
  kind : Kind
  tags : List String
  confidence : Float := 1.0
  /-- The language of code. -/
  language : Option Language := none
  reason : Reason
  /-- The sender of a message. -/
  contact : Option String := none
  color : Option Color := none

/-- A classifier, with or without a model. -/
structure Classifier where
  settings : ClassifierSettings := {}
  /-- Gives the weak evidence for a language. -/
  detector : Detector := .silent
  labeller : Option Labeller := none

namespace Classifier

def thresholds (c : Classifier) : Code.Thresholds :=
  ⟨c.settings.codeScoreSingleLine, c.settings.codeScoreMultiLine⟩

/-- The language of a text by its signatures, or else by weak evidence if that is wanted. -/
def languageOf? (c : Classifier) (cs : List Char) : Option Language :=
  Language.ofMarkers? cs <|>
    if c.settings.statisticalDetector then c.detector.language? cs else none

/-- Code in the language that the text shows. -/
def asCode (c : Classifier) (cs : List Char) (reason : Reason) : Classification :=
  let language := c.languageOf? cs
  { kind := .code, tags := "code" :: (language.map (·.name)).toList, confidence := 0.4, language,
    reason }

/-- What the rules say; they always say something. -/
def byRules (c : Classifier) (cs : List Char) (app : Option String) : Classification :=
  if Code.looksLikeCode cs c.thresholds then c.asCode cs .looksLikeCode
  else match Rule.first? c.settings cs app with
    | some .codeKeyword => c.asCode cs (.rule .codeKeyword)
    | some r => { kind := Tags.kindOf r.tags, tags := r.tags, confidence := 0.4, reason := .rule r }
    | none => { kind := .text, tags := ["text", "clipboard"], confidence := 0.4, reason := .nothing }

/-- Text that scores as code and shows its language is code, whatever a model says. -/
def strongLanguage? (c : Classifier) (cs : List Char) : Option Language :=
  if Code.looksLikeCode cs c.thresholds then Language.ofMarkers? cs else none

/-- What a model's labels come to. -/
def ofLabels (c : Classifier) (cs : List Char) (labels : Labels) : Classification :=
  let ranked := Tags.rank labels.tags ((c.languageOf? cs).map (·.name))
  let tags := match ranked.contains "code", c.strongLanguage? cs with
    | false, some l => ["code", l.name]
    | _, _ => ranked
  let kind := Tags.kindOf tags
  { kind, tags, confidence := labels.confidence,
    language := if kind = .code then Tags.languageIn tags else none, reason := .model }

/-- What the model says, if there is one and its answer can be used. -/
def byModel (o : Outside) (c : Classifier) (cs : List Char) : Consult (Option Classification) := do
  match c.labeller with
  | none => return none
  | some l =>
    match ← (l.label o (.ofList cs)).run with
    | .ok labels => return some (c.ofLabels cs labels)
    | .error _ => return none

/-- The first stage that has an answer. -/
def byStages (o : Outside) (c : Classifier) (cs : List Char) (app : Option String) :
    Consult Classification := do
  match Color.ofText? cs with
  | some color => return { kind := .color, tags := ["color", "design"], reason := .color, color }
  | none =>
    if Link.isLink cs then return { kind := .link, tags := ["link", "url"], reason := .link }
    return (← c.byModel o cs).getD (c.byRules cs app)

/-- Plain text is a message if it opens with a name, comes from a messaging program, or is short
and reports speech. -/
def upgradeMessage (c : Classifier) (cs : List Char) (app : Option String) (r : Classification) :
    Classification :=
  let sender := (Shape.senderName? cs).map String.ofList
  let messenger := isMessagingApp app c.settings.messagingApps
  let narrative := ((trim cs).length : Int) ≤ c.settings.messageMaxChars
    && Shape.reportingVerb.found cs
  if r.kind = .text && (sender.isSome || messenger || narrative) then
    { r with
      kind := .message, tags := Tags.ensure r.tags "message",
      contact := sender <|> if messenger then app else none }
  else r

/-- What a text from a program is; blank text is nothing. -/
def classify (o : Outside) (c : Classifier) (text : String) (app : Option String) :
    Consult (Option Classification) := do
  let cs := text.toList
  if isBlank cs then return none
  let r := c.upgradeMessage cs app (← c.byStages o cs app)
  return some { r with tags := Tags.withFloor r.tags r.kind }

end Classifier

end Clipboard
