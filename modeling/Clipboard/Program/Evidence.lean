import Clipboard.Code.Evidence
import Clipboard.Pattern.Forms

/-!
A detector that goes by the first lines of scripts, by imports and includes, and by the tags of pages. It is one
of many: what is told of classifiers is told for every detector.
-/

namespace Clipboard.Program

open Pattern Text

/-- The program that the first line names as the interpreter, lowered. -/
def interpreter? (cs : List Char) : Option (List Char) :=
  let first := lower (cs.takeWhile (· != '\n'))
  if "#!".toList.isPrefixOf first then
    let parts := pieces (among "/\\ ") (trim (first.drop 2))
    (parts.filter fun w => !w.isEmpty && w.head? != some '-').getLast?
  else none

/-- Whether the interpreter is `program`, with or without the ending of an executable file. -/
def runsWith (program : Pattern) (cs : List Char) : Bool :=
  (interpreter? cs).any (textStart ++ program
    ++ optional ("." ++ anyCaseOf ["exe", "cmd", "bat", "bin"]) ++ textEnd).starts

/-- The document type declaration at the head of a page; its first word is held. -/
def documentType : Pattern :=
  let name := one (fun c => c.isAlpha || c == '_') ++ many Char.isAlphanum
  "<!DOCTYPE" ++ someSpaces
    ++ hold (name ++ optional (someSpaces ++ name ++ someSpaces ++ "\"" ++ many (· != '"') ++ "\""))
    ++ many (· != '>') ++ ">"

def declaresHtml (cs : List Char) : Bool :=
  (documentType.search? cs).any fun (_, l) => (anyCase "html").starts l.held

def pythonProgram : Pattern :=
  anyCase "python" ++ optional (anyCase "w")
    ++ optional ("3" ++ optional ("." ++ one isDigit))

def rubyProgram : Pattern := anyCase "ruby" ++ optional ("1." ++ one isDigit)

def bashProgram : Pattern := optional (anyCaseOf ["ba", "z"]) ++ anyCase "sh"

def standardInclude : Pattern := "#include <" ++ someOf (fun c => c.isLower || c == '_') ++ ">"

def phpTag : Pattern := "<?" ++ notBefore "xml"

/-- The evidence for a language in a text. -/
def evidence (cs : List Char) : Language → Float
  | .python =>
    if runsWith pythonProgram cs || hasPart "import ".toList (cs.take 1000) then 1.0 else 0.0
  | .html => if declaresHtml cs then 0.5 else 0.0
  | .cpp =>
    if standardInclude.found cs then 0.2
    else if hasPart "using namespace ".toList cs then 0.4 else 0.0
  | .php => if runsWith (anyCase "php") cs then 1.0 else if phpTag.found cs then 0.3 else 0.0
  | .ruby => if runsWith rubyProgram cs then 1.0 else 0.0
  | .bash =>
    if runsWith bashProgram cs then 1.0 else if "$ ".toList.isPrefixOf cs then 0.2 else 0.0
  | _ => 0.0

/-- Each score is one of six. -/
theorem evidence_bounds (cs : List Char) (l : Language) : 0.0 ≤ evidence cs l ∧ evidence cs l ≤ 1.0 := by
  have hall : ∀ x ∈ [0.0, 0.2, 0.3, 0.4, 0.5, 1.0], (0.0 : Float) ≤ x ∧ x ≤ 1.0 := by
    decide +kernel
  refine hall _ ?_
  cases l <;> simp only [evidence] <;> repeat' split
  all_goals simp

def detector : Detector := ⟨evidence, evidence_bounds⟩

end Clipboard.Program
