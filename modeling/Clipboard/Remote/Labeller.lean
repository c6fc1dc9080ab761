import Clipboard.Remote.Reply
import Clipboard.Code.Language

/-!
A model that labels snippets: tags for a text, and the kind of content that a phrase names.
-/

namespace Clipboard.Remote

structure Labeller where
  model : String := "openai/gpt-4o-mini"
  /-- How much of a text is shown to the model. -/
  maxChars : Int := 1500
  timeout : Option Float := some 10.0
  retries : Int := 1
  enabled : Bool := true

/-- Tags as the model gives them, and how sure it is. -/
structure Labels where
  tags : List String
  confidence : Float

/-- A kind of content and a language, each perhaps unknown. -/
structure KindGuess where
  kind : Option String
  language : Option String

namespace Labeller

def languageNames : String := ", ".intercalate (Language.all.map (·.name))

def labelPrompt (maxChars : Int) (content : String) : String :=
  "\n".intercalate [
    "You label clipboard snippets. Reply with JSON only:",
    "\x7b\"tags\": [\"tag1\", \"tag2\"], \"confidence\": 0.0-1.0\x7d",
    "",
    "Rules:",
    "- 1 to 3 lowercase tags, most specific first.",
    "- Source code: \"code\" plus its language (" ++ languageNames ++ ").",
    "- Web addresses: \"link\" or \"url\". Email addresses: \"email\".",
    "- Error output or stack traces: \"error-message\".",
    "- Structured data: \"json\", \"table\", \"markdown\", \"list\".",
    "- Tasks and reminders: \"todo-item\". Chat or personal messages: \"message\".",
    "- Otherwise pick short topical tags (e.g. \"meeting\", \"recipe\", \"address\").",
    "- Use \"text\" only when nothing else fits.",
    "",
    s!"Snippet (first {maxChars} characters):",
    content]

def kindPrompt (phrase : String) : String :=
  "\n".intercalate [
    "A user filtered their clipboard history with: \"" ++ phrase ++ "\".",
    "Which content type do they mean? Reply with JSON only:",
    "\x7b\"content_type\": one of [\"code\", \"link\", \"text\", \"color\", \"message\", \"quote\", \"tweet\", null],",
    "  \"language\": programming language for code or null\x7d",
    "Known languages: " ++ languageNames ++ "."]

def request (l : Labeller) (prompt : String) (maxTokens : Int) : Request where
  model := l.model
  prompt := prompt
  maxTokens := maxTokens
  retries := l.retries
  timeout := l.timeout

/-- A confidence as the model states it, not yet bounded; what is no number counts as one half. -/
def statedConfidence : Option Json → Except Fault Float
  | none => .ok 0.5
  | some (.bool b) => .ok (if b then 1.0 else 0.0)
  | some (.int n) => match Decimal.ofInt? n with
    | some x => .ok x
    | none => .error .hugeConfidence
  | some (.real x) => .ok x
  | some (.text s) => .ok ((Decimal.readReal? s.toList).getD 0.5)
  | some _ => .ok 0.5

/-- The number between 0 and 1 nearest to `x`. -/
def clamped (x : Float) : Float :=
  let low := if x < 0.0 then 0.0 else x
  if 1.0 < low then 1.0 else low

/-- The labels in a reply: there has to be a list of tags with a text that is not blank. -/
def labelsOf (fields : List (String × Json)) : Except Fault Labels :=
  match Json.lookup? "tags" fields with
  | some (.list xs) =>
    let tags := xs.filterMap fun t => t.chars?.map String.ofList
    if tags.all (fun s => Text.isBlank s.toList) then .error .noTags
    else do return ⟨tags, clamped (← statedConfidence (Json.lookup? "confidence" fields))⟩
  | _ => .error .noTags

/-- Asks for tags for a text. -/
def label (o : Outside) (l : Labeller) (text : String) : Attempt Fault Labels := do
  if !l.enabled then throw .disabled
  let shown := String.ofList (Text.takeFirst l.maxChars text.toList)
  let fields ← completeObject o (l.request (labelPrompt l.maxChars shown) 60)
  match labelsOf fields with
  | .ok labels => return labels
  | .error e => throw e

/-- The kinds that a model may answer. -/
def kinds : List String := ["code", "link", "text", "color", "message", "quote", "tweet"]

/-- The kind and language in a reply. A language alone means code. -/
def kindOf (fields : List (String × Json)) : KindGuess :=
  let kind := match Json.lookup? "content_type" fields with
    | some (.text s) =>
      let k := Text.lowerString s
      if kinds.contains k then some k else none
    | _ => none
  match (Json.lookup? "language" fields).bind (·.chars?) with
  | some cs =>
    if Text.isBlank cs then ⟨kind, none⟩
    else ⟨kind <|> some "code", some (Language.normalize (.ofList cs))⟩
  | none => ⟨kind, none⟩

/-- Asks which kind of content a phrase names. -/
def inferKind (o : Outside) (l : Labeller) (phrase : String) : Attempt Fault KindGuess := do
  if !l.enabled then throw .disabled
  return kindOf (← completeObject o (l.request (kindPrompt phrase) 40))

end Labeller

end Clipboard.Remote
