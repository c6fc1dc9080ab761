import Clipboard.Text.CharClass

/-!
Taking text apart: trimming, words between blanks, lines, pieces between separators, and the
search for a part.
-/

namespace Clipboard.Text

def dropWhileEnd (p : Char → Bool) (cs : List Char) : List Char :=
  (cs.reverse.dropWhile p).reverse

/-- The text without the blanks at its ends. -/
def trim (cs : List Char) : List Char :=
  dropWhileEnd isSpace (cs.dropWhile isSpace)

def trimString (s : String) : String := .ofList (trim s.toList)

def isBlank (cs : List Char) : Bool := cs.all isSpace

/-- The runs of characters between blanks. -/
def words : List Char → List (List Char)
  | [] => []
  | c :: cs =>
    if isSpace c then words cs
    else if cs.head?.all isSpace then [c] :: words cs
    else match words cs with
      | [] => [[c]]
      | w :: ws => (c :: w) :: ws

/-- The lines, without their ends; a carriage return and the line feed after it are one end. -/
def lines : List Char → List (List Char)
  | [] => []
  | '\r' :: '\n' :: cs => [] :: lines cs
  | c :: cs =>
    if isLineBreak c then [] :: lines cs
    else match lines cs with
      | [] => [[c]]
      | l :: ls => (c :: l) :: ls

/-- Whether `part` occurs in the text. -/
def hasPart (part : List Char) : List Char → Bool
  | [] => part.isEmpty
  | c :: cs => part.isPrefixOf (c :: cs) || hasPart part cs

/-- What stands before and after the first `sep`, if there is one. -/
def cutAt (sep : Char) (cs : List Char) : List Char × Option (List Char) :=
  match cs.dropWhile (· != sep) with
  | [] => (cs, none)
  | _ :: rest => (cs.takeWhile (· != sep), some rest)

/-- The pieces between the characters that satisfy `p`, empty ones included. -/
def pieces (p : Char → Bool) : List Char → List (List Char)
  | [] => [[]]
  | c :: cs =>
    if p c then [] :: pieces p cs
    else match pieces p cs with
      | [] => [[c]]
      | w :: ws => (c :: w) :: ws

/-- The pieces joined with `sep` between them. -/
def join (sep : List Char) (parts : List (List Char)) : List Char :=
  (parts.intersperse sep).flatten

end Clipboard.Text
