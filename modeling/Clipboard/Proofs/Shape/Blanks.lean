import Clipboard.Shape.Prose
import Clipboard.Proofs.Pattern.Overlooks

/-!
Lists, senders' names, verbs of reporting and error output in a text with blanks around it. All are the same with the
blanks as without them, but for a line of a stack trace, which counts as one only behind a blank.
-/

namespace Clipboard.Shape

open Pattern
open Text (isSpace isBlank isWord isDigit)

attribute [local simp] reportingVerb listItem namePrefix nameWord

theorem overlooks_reportingVerb : reportingVerb.Overlooks := .solid

/-! ## Lists and names -/

variable {front back cs : List Char}

theorem two_le_count_listItem_padded (hfront : isBlank front) (hback : isBlank back) :
    2 ≤ listItem.count (front ++ cs ++ back) ↔ 2 ≤ listItem.count cs := by
  have hindented : Indented listItem := {}
  have hleaves : listItem.leaves := by decide
  have heres : listItem.Heres IgnoresBack := by simp
  have hsearch := map_search?_padded hindented.map_search?_dropWhile hleaves heres hfront hback cs
  rw [two_le_count_iff hleaves, two_le_count_iff hleaves, hsearch]
  cases (listItem.search? cs).map Prod.snd with
  | none => simp only [Option.map_none]
  | some l =>
      simp only [Option.map_some, Option.some.injEq, exists_eq_left', padded,
        searchFrom_padded hleaves heres hback, Option.isSome_map]

theorem senderName?_padded (hfront : isBlank front) (hback : isBlank back) :
    senderName? (front ++ cs ++ back) = senderName? cs := by
  have hindented : Indented namePrefix := {}
  have hleaves : namePrefix.leaves := by decide
  have heres : namePrefix.Heres IgnoresBack := by simp
  have hmatch : namePrefix.match? (.start (front ++ cs ++ back)) =
      (namePrefix.match? (.start cs)).map (padded back) := by
    have hdrop (cs : List Char) :
        namePrefix.match? (.start cs) = namePrefix.match? (.start (cs.dropWhile isSpace)) := by
      rw [Cursor.start, Cursor.start, hindented.match?_start, hindented.match?_start, List.dropWhile_idempotent]
    rw [List.append_assoc, append_of_dropWhile hdrop hfront]
    exact match?_padded hleaves heres hback (.start cs)
  rw [senderName?, senderName?, hmatch]
  cases namePrefix.match? (.start cs) <;> rfl

/-! ## Error output -/

/-- The call in a line of a stack trace, up to the end of the line. -/
def frameCall : Pattern :=
  "at " ++ someOf (fun c => isWord c || among "$.<>" c) ++ "(" ++ many onLine ++ ")" ++ atLineEnd

/-- A line of a stack trace. -/
def frame : Pattern := lineStart ++ (someSpaces ++ frameCall)

/-- Error output other than the lines of a stack trace. -/
def otherErrors : Pattern :=
  oneOf [
    wordEdge ++ one Char.isUpper ++ many isWord ++ oneOf ["Error", "Exception"] ++ wordEdge ++ ":",
    wordEdge ++ oneOf ["ERROR", "FATAL", "CRITICAL", "WARN" ++ optional "ING"] ++ wordEdge
      ++ one (among ":]"),
    wordEdge ++ "exit " ++ oneOf ["code", "status"] ++ " " ++ one (fun c => '1' ≤ c && c ≤ '9')
      ++ many isDigit,
    wordEdge ++ "segmentation fault" ++ wordEdge,
    wordEdge ++ "null" ++ optional " " ++ "pointer" ++ wordEdge]

attribute [local simp] frameCall frame otherErrors

theorem overlooks_otherErrors : otherErrors.Overlooks := .solid

theorem found_errorOutput (cs : List Char) : errorOutput.found cs =
    ((exactly "Traceback (most recent call last)").found cs || (frame.found cs || otherErrors.found cs)) := by
  let line := lineStart ++ someSpaces ++ "at " ++ someOf (fun c => isWord c || among "$.<>" c) ++ "("
    ++ many onLine ++ ")"
  have hmatch (k : Cursor) : ((line ++ spaces ++ lineEnd).match? k).isSome = (frame.match? k).isSome :=
    isSome_match?_append_congr passes_toLineEnd line k
  have hframe : (line ++ spaces ++ lineEnd).found cs = frame.found cs := isSome_searchFrom_congr hmatch cs
  rw [← hframe]
  exact (found_alt cs).trans (congrArg _ (found_alt cs))

/-- Blanks in front turn a call at the start of the text into a line of a stack trace. -/
theorem found_errorOutput_padded (hfront : isBlank front) (hback : isBlank back) (cs : List Char) :
    errorOutput.found (front ++ cs ++ back) =
      (errorOutput.found cs || (!front.isEmpty && frameCall.starts cs)) := by
  have hframe : frame.found (front ++ cs ++ back) =
      (frame.found cs || (!front.isEmpty && frameCall.starts cs)) := by
    rw [found_padded (by decide) (by simp) hback]
    exact found_someSpaces_append (by decide) (by simp) hfront cs
  have htraceback : (exactly "Traceback (most recent call last)").Overlooks := .solid
  rw [found_errorOutput, found_errorOutput, hframe, htraceback.found_eq hfront hback,
    overlooks_otherErrors.found_eq hfront hback]
  simp only [Bool.or_assoc, Bool.or_comm (otherErrors.found cs)]

end Clipboard.Shape
