import Clipboard.Remote.Basic
import Clipboard.Json.Parser
import Clipboard.Text.Slice

/-!
Getting text, and an object within the text, out of a model's reply.
-/

namespace Clipboard.Remote

open Json (Failure)

/-- The text of a reply; a reply without text counts as empty. -/
def Reply.text : Reply → Except Fault String
  | content t => .ok (t.getD "")
  | failure kind message => .error (.call kind message)
  | nothing => .error (.call "IndexError" "list index out of range")

/-- From the first opening brace to the last closing one behind it. -/
def objectText? (cs : List Char) : Option (List Char) :=
  match (cs.dropWhile (· != '\x7b')).reverse.dropWhile (· != '\x7d') with
  | [] => none
  | rest => some rest.reverse

/-- The fields of the object in a text; prose and fences around it do not matter. -/
def objectIn (text : String) : Except Fault (List (String × Json)) :=
  let cs := Text.trim text.toList
  if cs.isEmpty then .error .empty
  else match objectText? cs with
    | none => .error (.noObject (.ofList (cs.take 80)))
    | some block => match Json.parse block with
      | .ok (.object fields) => .ok fields
      | .ok _ => .error (.malformed "")
      | .error (.longNumber digits, _) => .error (.longNumber digits)
      | .error (.tooDeep, _) => .error .tooDeep
      | .error e => .error (.malformed (Json.failureMessage block e))

/-- Asks for text. -/
def complete (o : Outside) (r : Request) : Attempt Fault String := do
  match (← o.ask r).text with
  | .ok s => return s
  | .error e => throw e

/-- Asks for an object. -/
def completeObject (o : Outside) (r : Request) : Attempt Fault (List (String × Json)) := do
  match objectIn (← complete o r) with
  | .ok fields => return fields
  | .error e => throw e

end Clipboard.Remote
