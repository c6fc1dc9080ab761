import Clipboard.Pattern.Forms
import Clipboard.Text.Case
import Clipboard.Text.Split

/-!
Shapes of everyday text: mail addresses, error output, lists, reminders, meetings, greetings,
sentences, and messages that open with the name of their sender.
-/

namespace Clipboard.Shape

open Pattern Text

def email : Pattern :=
  wordEdge ++ someOf (fun c => isWord c || among ".+-" c) ++ "@"
    ++ someOf (fun c => isWord c || c == '-') ++ "." ++ someOf (fun c => isWord c || among ".-" c)
    ++ wordEdge

def errorOutput : Pattern :=
  oneOf [
    "Traceback (most recent call last)",
    lineStart ++ someSpaces ++ "at " ++ someOf (fun c => isWord c || among "$.<>" c) ++ "("
      ++ many onLine ++ ")" ++ spaces ++ lineEnd,
    wordEdge ++ one Char.isUpper ++ many isWord ++ oneOf ["Error", "Exception"] ++ wordEdge ++ ":",
    wordEdge ++ oneOf ["ERROR", "FATAL", "CRITICAL", "WARN" ++ optional "ING"] ++ wordEdge
      ++ one (among ":]"),
    wordEdge ++ "exit " ++ oneOf ["code", "status"] ++ " " ++ one (fun c => '1' ≤ c && c ≤ '9')
      ++ many isDigit,
    wordEdge ++ "segmentation fault" ++ wordEdge,
    wordEdge ++ "null" ++ optional " " ++ "pointer" ++ wordEdge]

/-- A line of a bulleted or numbered list. -/
def listItem : Pattern :=
  lineStart ++ spaces ++ oneOf [one (among "-*•"), someOf isDigit ++ one (among ".)")]
    ++ someSpaces ++ one (!isSpace ·)

/-- A word of a sender's name. -/
def nameWord : Pattern := one Char.isUpper ++ many fun c => isWord c || among "'.-" c

/-- One to three words of a name, which are held, a colon and some text. -/
def namePrefix : Pattern :=
  textStart ++ spaces ++ hold (nameWord ++ upTo (" " ++ nameWord) 2) ++ spaces ++ ":" ++ someSpaces
    ++ one (!isSpace ·)

/-- Words before a colon that are labels and not names. -/
def labelWords : List String := [
  "note", "notes", "todo", "to-do", "error", "warning", "warn", "info", "debug", "fatal", "re",
  "fwd", "subject", "date", "to", "from", "cc", "step", "tip", "example", "update", "summary",
  "address", "phone", "email", "url", "link", "question", "answer", "q", "a", "ps", "nb",
  "important", "reminder", "agenda", "title", "description"]

/-- The name of an exception or warning class. -/
def exceptionName : Pattern := oneOf ["Error", "Exception", "Warning"] ++ textEnd

/-- The sender's name in a text of the form `Name: message`. -/
def senderName? (cs : List Char) : Option (List Char) := do
  let l ← namePrefix.match? (.start cs)
  let name := l.held
  let firstWord ← (words name).head?
  if labelWords.contains (.ofList (dropWhileEnd (· == '.') (lower firstWord))) then none
  else if exceptionName.found name then none
  else some name

/-- A keyword of some language in its place, a method call, or a command of a build tool. -/
def codeKeyword : Pattern :=
  oneOf [
    wordEdge ++ oneOf ["function", "const", "let", "var", "def", "class", "import", "return",
      "public", "private", "static", "void", "elif", "struct", "async", "await"] ++ wordEdge
      ++ spaces ++ one (fun c => isWord c || among "(\x7b" c),
    wordChars ++ "." ++ wordChars ++ "(" ++ many (· != ')') ++ ")",
    wordEdge ++ oneOf ["npm", "pip", "git", "docker", "kubectl", "brew"] ++ someSpaces ++ wordChars]

def reminder : Pattern :=
  oneOf [
    wordEdge ++ oneOf [anyCaseOf ["todo", "to-do", "to do"], anyCase "remind" ++ optional (anyCase "er"),
      anyCase "don" ++ optional "'" ++ anyCase "t forget",
      anyCaseOf ["remember to", "need to", "buy", "pick up"]] ++ wordEdge,
    lineStart ++ spaces ++ "[" ++ optional (one (among " xX")) ++ "]"]

/-- A word for a meeting and, after it, a word for a time or place. -/
def meeting : Pattern :=
  wordEdge ++ oneOf [anyCaseOf ["meeting", "call", "sync", "standup", "stand-up", "appointment"],
      anyCase "schedule" ++ optional (anyCase "d"),
      anyCaseOf ["agenda", "calendar", "zoom", "webinar", "interview"]] ++ wordEdge
    ++ many (fun _ => true) ++ wordEdge
    ++ oneOf [anyCaseOf ["at", "on", "@", "tomorrow", "today", "monday", "tuesday", "wednesday",
        "thursday", "friday", "saturday", "sunday"],
      counted isDigit 1 1 ++ optional (":" ++ counted isDigit 2 0) ++ spaces
        ++ anyCaseOf ["am", "pm"]]
    ++ wordEdge

def greeting : Pattern :=
  textStart ++ spaces
    ++ oneOf [anyCaseOf ["hi", "hey", "hello", "yo"],
      anyCase "good " ++ anyCaseOf ["morning", "afternoon", "evening"], anyCase "greetings",
      anyCase "dear " ++ wordChars]
    ++ wordEdge

def sentence : Pattern :=
  textStart ++ one (fun c => c.isUpper || c == '"' || c == '\'') ++ many (noneOf ".!?\n")
    ++ one (among ".!?") ++ textEnd

/-- A verb that reports what somebody said. -/
def reportingVerb : Pattern :=
  wordEdge ++ anyCaseOf ["said", "says", "told", "asked", "replied", "wrote", "texted", "messaged",
    "mentioned", "sent"] ++ wordEdge

end Clipboard.Shape
