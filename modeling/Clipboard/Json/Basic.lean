import Clipboard.Text.CodePoint

/-!
Values of the data format in which snippets are stored and a model replies. The fields of an
object keep their order; whole numbers are unbounded. Escapes can put code points into a text that
are no characters, so there is a second form of text for these.
-/

namespace Clipboard

inductive Json
  | null
  | bool (b : Bool)
  | int (n : Int)
  | real (x : Float)
  | text (s : String)
  /-- A text in which some half of a pair stands alone. -/
  | torn (points : List Text.CodePoint)
  | list (xs : List Json)
  | object (fields : List (String × Json))
  deriving Inhabited

namespace Json

open Text (CodePoint)

/-- The text with these code points. -/
def ofPoints (ps : List CodePoint) : Json :=
  match CodePoint.chars? ps with
  | some cs => text (.ofList cs)
  | none => torn ps

/-- The characters of a text; halves of pairs are replaced. -/
def chars? : Json → Option (List Char)
  | text s => some s.toList
  | torn ps => some (CodePoint.shownChars ps)
  | _ => none

/-- The runs of characters of a text between the halves of pairs that stand alone. -/
def runs? : Json → Option (List (List Char))
  | text s => some [s.toList]
  | torn ps => some (CodePoint.runs ps)
  | _ => none

/-- The value of a key among the fields of an object. -/
def lookup? (key : String) (fields : List (String × Json)) : Option Json := fields.lookup key

/-- A field set; a new key comes last, a known one keeps its place. -/
def setField (key : String) (v : Json) : List (String × Json) → List (String × Json)
  | [] => [(key, v)]
  | (k, w) :: fields => if k == key then (k, v) :: fields else (k, w) :: setField key v fields

/-- Empty texts, lists and objects, zero, `false` and `null` count as absent. -/
def isPresent : Json → Bool
  | null => false
  | bool b => b
  | int n => n != 0
  | real x => x != 0
  | text s => !s.isEmpty
  | torn ps => !ps.isEmpty
  | list xs => !xs.isEmpty
  | object fields => !fields.isEmpty

mutual

/-- Whether all texts of the value consist of characters. -/
def isWhole : Json → Bool
  | torn _ => false
  | list xs => areWhole xs
  | object fields => fieldsAreWhole fields
  | _ => true

def areWhole : List Json → Bool
  | [] => true
  | v :: vs => isWhole v && areWhole vs

def fieldsAreWhole : List (String × Json) → Bool
  | [] => true
  | (_, v) :: fields => isWhole v && fieldsAreWhole fields

end

end Json

end Clipboard
