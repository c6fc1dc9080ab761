import Clipboard.Json.Basic
import Clipboard.Decimal.Reader
import Clipboard.Decimal.Shortest
import Clipboard.Text.Quoted

/-!
Values as messages show them: texts quoted, `None` for no value, words with a capital letter.
-/

namespace Clipboard.Json

def inspectReal (x : Float) : String :=
  match Decimal.Parts.of x with
  | .nan => "nan"
  | .infinite negative => if negative then "-inf" else "inf"
  | .finite negative m e => Decimal.finiteText negative m e

mutual

def inspect : Json → String
  | null => "None"
  | bool b => if b then "True" else "False"
  | int n => toString n
  | real x => inspectReal x
  | text s => Text.quotedString s
  | torn ps => .ofList (Text.quotedPoints ps)
  | list xs => "[" ++ inspectItems xs ++ "]"
  | object fields => "\x7b" ++ inspectFields fields ++ "\x7d"

def inspectItems : List Json → String
  | [] => ""
  | [v] => inspect v
  | v :: vs => inspect v ++ ", " ++ inspectItems vs

def inspectFields : List (String × Json) → String
  | [] => ""
  | [(k, v)] => Text.quotedString k ++ ": " ++ inspect v
  | (k, v) :: fields => Text.quotedString k ++ ": " ++ inspect v ++ ", " ++ inspectFields fields

end

/-- A text as it is, any other value as messages show it. -/
def asText : Json → String
  | text s => s
  | torn ps => .ofList (Text.CodePoint.shownChars ps)
  | v => v.inspect

mutual

/-- Whether the value has a whole number with more digits than a text may show. -/
def isOverlong : Json → Bool
  | int n => 10 ^ Decimal.maxDigits ≤ n.natAbs
  | list xs => areOverlong xs
  | object fields => fieldsAreOverlong fields
  | _ => false

def areOverlong : List Json → Bool
  | [] => false
  | v :: vs => isOverlong v || areOverlong vs

def fieldsAreOverlong : List (String × Json) → Bool
  | [] => false
  | (_, v) :: fields => isOverlong v || fieldsAreOverlong fields

end

end Clipboard.Json
