import Clipboard.Code.Language
import Clipboard.Snippet.Kind

/-!
Tags: their clean form, their ranking, and the two tags that every snippet ends up with. The
strongest sign comes first: code with its language, then tags for known shapes, then the others,
and generic ones only to fill up.
-/

namespace Clipboard.Tags

open Text

/-- A snippet has at most so many tags. -/
def maxTags : Nat := 2

def priority : List String :=
  ["link", "url", "email", "error-message", "table", "json", "list", "todo-item", "markdown"]

/-- Tags that say nothing. -/
def generic : List String := ["text", "clipboard", "snippet", "content"]

/-- Characters of a clean tag. -/
def isTagChar (c : Char) : Bool := c.isLower || c.isDigit || c == '+' || c == '#' || c == '-'

/-- A tag in lower case without a leading `#`, its words joined with dashes and other characters
dropped. -/
def clean (tag : String) : String :=
  let bare := trim ((lower (trim tag.toList)).dropWhile (· == '#'))
  .ofList ((join ['-'] (words bare)).filter isTagChar)

/-- The clean tags without blanks and repetitions, in order. -/
def dedupe (tags : List String) : List String :=
  (tags.map clean).foldl (fun kept t => if t.isEmpty || kept.contains t then kept else kept ++ [t]) []

/-- The first language that a tag names. -/
def languageIn (tags : List String) : Option Language :=
  tags.findSome? fun t => Language.ofName? (Language.normalize t)

/-- Adds `tag` unless it is there. -/
def addNew (tags : List String) (tag : String) : List String :=
  if tags.contains tag then tags else tags ++ [tag]

/-- The code tag with its language: the one that the tags name, else a detected one. -/
def codePair (cleaned : List String) (detected : Option String) : List String :=
  if cleaned.contains "code" then
    match (languageIn cleaned).map (·.name) <|> detected.filter (!·.isEmpty) with
    | some l => ["code", l]
    | none => ["code"]
  else []

/-- Whether a tag comes behind the ranked ones: neither there nor generic, and no other name of
the language of the code. -/
def isFurther (ranked : List String) (tag : String) : Bool :=
  !ranked.contains tag && !generic.contains tag
    && !(ranked.contains "code" && ranked.contains (Language.normalize tag))

/-- Fills up with generic tags. -/
def fill (ranked : List String) : List String → List String
  | [] => ranked
  | t :: ts =>
    if maxTags ≤ ranked.length then ranked
    else fill (if generic.contains t then addNew ranked t else ranked) ts

/-- The two strongest of the tags. -/
def rank (tags : List String) (detected : Option String) : List String :=
  let cleaned := dedupe tags
  let ranked := codePair cleaned detected
  let ranked := (priority.filter (cleaned.contains ·)).foldl addNew ranked
  let ranked := cleaned.foldl (fun r t => if isFurther r t then r ++ [t] else r) ranked
  (fill ranked cleaned).take maxTags

/-- The kind that the tags stand for. -/
def kindOf (tags : List String) : Kind :=
  if tags.contains "code" then .code
  else if tags.contains "link" || tags.contains "url" then .link
  else .text

/-- The tags that a kind is given when others are missing. -/
def floorOf : Kind → List String
  | .code => ["code", "snippet"]
  | .link => ["link", "url"]
  | .color => ["color", "design"]
  | .message => ["message", "chat"]
  | .quote => ["quote", "text"]
  | .tweet => ["tweet", "social"]
  | .text => ["text", "clipboard"]

/-- Tops the tags up to two from those of the kind. -/
def withFloor (tags : List String) (k : Kind) : List String :=
  ((floorOf k).foldl (fun r t => if maxTags ≤ r.length then r else addNew r t) tags).take maxTags

/-- The tags with `tag` among them, in front if it is new. -/
def ensure (tags : List String) (tag : String) : List String :=
  if tags.contains tag then tags else (tag :: tags).take maxTags

end Clipboard.Tags
