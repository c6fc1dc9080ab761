import Clipboard.Pattern.Forms
import Clipboard.Text.Case
import Clipboard.Text.Split

/-!
How much a text looks like source code. Each sign of code adds a fixed weight and each sign of
prose takes one away; a single line needs a higher score than several, since short prose is
easily mistaken for code.
-/

namespace Clipboard.Code

open Pattern Text

/-! ## Signs of code -/

def callSign : Pattern :=
  one (fun c => c.isAlpha || c == '_') ++ many (fun c => isWord c || c == '.') ++ spaces ++ "("
    ++ many (noneOf "()\n") ++ ")"

def keywordSign : Pattern :=
  oneOf [
    wordEdge ++ oneOf ["def", "function", "class", "return", "import", "const", "let", "var",
      "public", "private", "protected", "static", "void", "elif", "lambda", "async", "await",
      "struct", "enum", "interface", "namespace", "fn", "func", "println", "printf",
      "console.log", "SELECT", "INSERT", "UPDATE", "DELETE" ++ someSpaces ++ "FROM"] ++ wordEdge,
    wordEdge ++ oneOf ["if", "for", "while", "switch", "catch"] ++ spaces ++ "("]

def declarationSign : Pattern :=
  lineStart ++ spaces ++ oneOf ["def", "class", "function", "fn", "func", "public", "private",
    "protected", "static", "interface", "struct"] ++ someSpaces ++ wordChars

def operatorSign : Pattern :=
  oneOf ["=>", "===", "!==", "==", "!=", "+=", "-=", "&&", "||", "->", "::", "<=", ">=", "++"]

def assignmentSign : Pattern :=
  wordEdge ++ one (fun c => c.isAlpha || c == '_') ++ many isWord
    ++ optional ("[" ++ many (noneOf "]") ++ "]") ++ spaces ++ "=" ++ spaces
    ++ one fun c => !(c == '=' || isSpace c)

def commentSign : Pattern :=
  oneOf [
    oneOf [lineStart, one isSpace] ++ oneOf ["//", "/*", "*/", "#!"],
    lineStart ++ spaces ++ "--" ++ one isSpace]

/-- A semicolon or brace that ends a line. -/
def terminatorSign : Pattern := one (among ";\x7b\x7d") ++ spaces ++ lineEnd

/-- An opening tag and, later, the closing tag of the same name. -/
def tagPairSign : Pattern :=
  "<" ++ hold (one Char.isAlpha ++ many (fun c => isWord c || c == '-')) ++ wordEdge
    ++ many (noneOf ">") ++ ">" ++ fewest (fun _ => true) ++ "</" ++ again ++ spaces ++ ">"

def indentedSign : Pattern :=
  lineStart ++ oneOf ["  " ++ many (· == ' '), "\t"] ++ one (!isSpace ·)

/-! ## Signs of prose -/

def pronounVerbSign : Pattern :=
  wordEdge ++ anyCaseOf ["i", "you", "we", "they", "he", "she", "it"] ++ someSpaces
    ++ anyCaseOf ["am", "are", "is", "was", "were", "have", "had", "will", "would", "can", "could",
      "should", "think", "want", "need", "know", "feel", "just", "really", "love", "hope"]
    ++ wordEdge

def conversationSign : Pattern :=
  wordEdge ++ anyCaseOf ["hey", "hi there", "hello", "thanks", "thank you", "please", "lol", "haha",
    "let me know", "how are you", "see you", "talk soon", "sounds good", "no worries",
    "by the way"] ++ wordEdge

def sentenceEndSign : Pattern := one Char.isAlpha ++ one (among ".!?") ++ textEnd

/-! ## Error reports -/

/-- Phrases of error messages that are copied from programs and pages. -/
def errorPhrases : List String := [
  "something went wrong", "an error occurred", "an unexpected error", "please try again",
  "page not found", "404 not found", "internal server error", "access denied",
  "permission denied", "network error", "connection refused", "connection timed out",
  "failed to fetch", "failed to load", "unable to connect"]

/-- The lines of a stack trace, and the headers of exceptions. -/
def stackTrace : Pattern :=
  oneOf [
    "Traceback (most recent call last)",
    lineStart ++ spaces ++ "File \"" ++ someOf (noneOf "\"") ++ "\", line " ++ one isDigit
      ++ many isDigit,
    lineStart ++ someSpaces ++ "at " ++ someOf (!isSpace ·) ++ optional (" " ++ someOf (!isSpace ·))
      ++ " (" ++ many onLine ++ ":" ++ someOf isDigit ++ ":" ++ someOf isDigit ++ ")" ++ spaces
      ++ lineEnd,
    lineStart ++ someSpaces ++ "at " ++ many onLine ++ ":" ++ someOf isDigit ++ ":" ++ someOf isDigit
      ++ spaces ++ lineEnd,
    lineStart ++ many (fun c => isWord c || c == '.' || c == '$') ++ oneOf ["Error", "Exception"]
      ++ ": "]

/-! ## Braces -/

/-- The depth after the braces of the text, unless one closes that was not open. -/
def braceDepth? : Nat → List Char → Option Nat
  | depth, [] => some depth
  | depth, c :: cs =>
    if c == '\x7b' then braceDepth? (depth + 1) cs
    else if c == '\x7d' then
      match depth with
      | 0 => none
      | d + 1 => braceDepth? d cs
    else braceDepth? depth cs

/-- There are braces and each opening one has its closing one. -/
def hasBalancedBraces (cs : List Char) : Bool :=
  cs.contains '\x7b' && braceDepth? 0 cs == some 0

/-! ## The score -/

/-- Whether more than one line holds something. -/
def isMultiLine (cs : List Char) : Bool :=
  1 < ((lines cs).filter (!isBlank ·)).length

/-- What the terminators are worth: two or more on several lines count double. -/
def terminatorWeight (terminators : Nat) (multiLine : Bool) : Int :=
  if terminators == 0 then 0 else if multiLine && 1 < terminators then 2 else 1

/-- The score of a text; prose may go below zero. -/
def score (text : List Char) : Int :=
  let cs := trim text
  let multiLine := isMultiLine cs
  let worth (b : Bool) (n : Int) : Int := if b then n else 0
  worth (hasBalancedBraces cs) 2 + worth (callSign.found cs) 1 + worth (keywordSign.found cs) 2
    + worth (declarationSign.found cs) 1 + worth (operatorSign.found cs) 1
    + worth (assignmentSign.found cs) 1 + worth (multiLine && indentedSign.found cs) 2
    + worth (commentSign.found cs) 1 + terminatorWeight (terminatorSign.count cs) multiLine
    + worth (tagPairSign.found cs) 3 - worth (pronounVerbSign.found cs) 2
    - worth (conversationSign.found cs) 2
    - worth (sentenceEndSign.found cs && !cs.contains ';' && !cs.contains '\x7d') 1

/-- Whether the text reports an error; such text does not look like code. -/
def reportsError (cs : List Char) : Bool :=
  errorPhrases.any (fun phrase => hasPart phrase.toList (lower cs)) || stackTrace.found cs

/-- The scores that count as code. -/
structure Thresholds where
  singleLine : Int := 4
  multiLine : Int := 3

def Thresholds.of (t : Thresholds) (cs : List Char) : Int :=
  if isMultiLine cs then t.multiLine else t.singleLine

def looksLikeCode (text : List Char) (t : Thresholds) : Bool :=
  let cs := trim text
  !cs.isEmpty && !reportsError cs && t.of cs ≤ score cs

end Clipboard.Code
