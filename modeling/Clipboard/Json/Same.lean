import Clipboard.Decimal.Binary
import Clipboard.Json.Basic

/-!
When two values are the same: numbers by what they stand for, `true` and `false` as 1 and 0, lists
item by item, objects by their keys.
-/

namespace Clipboard.Json

/-- Whether the value has no parts. -/
def isAtom : Json → Bool
  | list _ | object _ => false
  | _ => true

/-- A finite number as a numerator and a denominator. -/
def fraction? : Json → Option (Int × Nat)
  | bool b => some (if b then 1 else 0, 1)
  | int n => some (n, 1)
  | real x => match Decimal.Parts.of x with
    | .finite negative m e =>
      let (num, den) := Decimal.scaled m e
      some (if negative then -num else num, den)
    | _ => none
  | _ => none

def sameNumber (v w : Json) : Bool :=
  match fraction? v, fraction? w with
  | some (n, d), some (m, e) => n * e == m * d
  | _, _ => false

mutual

def same : Json → Json → Bool
  | null, null => true
  | text s, text t => s == t
  | torn ps, torn qs => ps == qs
  | real x, real y => x == y
  | list xs, list ys => sameItems xs ys
  | object fields, object others => fields.length == others.length && sameFields fields others
  | v, w => sameNumber v w

def sameItems : List Json → List Json → Bool
  | [], [] => true
  | v :: vs, w :: ws => same v w && sameItems vs ws
  | _, _ => false

/-- Whether the fields occur among the others with the same values. -/
def sameFields : List (String × Json) → List (String × Json) → Bool
  | [], _ => true
  | (k, v) :: fields, others =>
    (match lookup? k others with
      | some w => same v w
      | none => false) && sameFields fields others

end

end Clipboard.Json
