import Clipboard.Shape.Link
import Clipboard.Shape.Prose
import Clipboard.Settings.Basic

/-!
Rules that name a text by its shape. They are tried in order and the first one that holds decides.
-/

namespace Clipboard

open Text

/-- Whether text from a program of this name is a message. -/
def isMessagingApp (app : Option String) (messagingApps : List String) : Bool :=
  match app with
  | none => false
  | some name =>
    let lowered := lower (trim name.toList)
    !name.isEmpty && messagingApps.any fun a => hasPart a.toList lowered

inductive Rule
  | link | email | error | list | message | codeKeyword | todo | meeting | longText | multiLine
  | greeting | sentence
  deriving DecidableEq, Repr

namespace Rule

def all : List Rule :=
  [link, email, error, list, message, codeKeyword, todo, meeting, longText, multiLine, greeting,
    sentence]

def name : Rule → String
  | link => "url"
  | email => "email"
  | error => "error"
  | list => "list"
  | message => "message"
  | codeKeyword => "code-keyword"
  | todo => "todo"
  | meeting => "meeting"
  | longText => "long-text"
  | multiLine => "multi-line"
  | greeting => "greeting"
  | sentence => "sentence"

def tags : Rule → List String
  | link => ["link", "url"]
  | email => ["email", "contact"]
  | error => ["error-message", "debug"]
  | list => ["list", "notes"]
  | message => ["message", "chat"]
  | codeKeyword => ["code"]
  | todo => ["todo-item", "reminder"]
  | meeting => ["meeting", "schedule"]
  | longText => ["article", "reading"]
  | multiLine => ["notes", "text"]
  | greeting => ["greeting", "text"]
  | sentence => ["note", "text"]

/-- Whether the rule holds of a text from a program. -/
def holds (s : ClassifierSettings) (cs : List Char) (app : Option String) : Rule → Bool
  | link => Link.containsLink cs
  | email => Shape.email.found cs
  | error => Shape.errorOutput.found cs
  | list => 2 ≤ Shape.listItem.count cs
  | message => isMessagingApp app s.messagingApps || (Shape.senderName? cs).isSome
  | codeKeyword => Shape.codeKeyword.found cs
  | todo => Shape.reminder.found cs
  | meeting => Shape.meeting.found cs
  | longText => s.longTextChars < cs.length
  | multiLine => s.multiLineLines < (lines (trim cs)).length
  | greeting => Shape.greeting.found cs
  | sentence => Shape.sentence.starts (trim cs)

/-- The first rule that holds. -/
def first? (s : ClassifierSettings) (cs : List Char) (app : Option String) : Option Rule :=
  all.find? (·.holds s cs app)

end Rule

end Clipboard
