import Clipboard.Calendar.Moment
import Clipboard.Decimal.Binary
import Clipboard.Text.CodePoint

/-!
Values of files of settings. Besides texts and numbers they hold days, moments and bytes, and any of
these may be a key. The fields of an object keep their order.
-/

namespace Clipboard.Settings

/-- A value without parts. -/
inductive Scalar
  | null
  | bool (b : Bool)
  | int (n : Int)
  | real (x : Float)
  | text (s : String)
  /-- A text in which halves of pairs stand. -/
  | torn (points : List Text.CodePoint)
  | date (d : Calendar.Date)
  | moment (m : Calendar.Moment)
  | bytes (bs : List UInt8)
  deriving Inhabited

instance : Coe String Scalar := ⟨.text⟩

/-- What keys have in common that stand for each other. -/
inductive Identity
  | null
  | number (q : Rat)
  | infinite (negative : Bool)
  | nan
  | text (s : String)
  | torn (points : List Text.CodePoint)
  | date (d : Calendar.Date)
  /-- A moment without an offset. -/
  | moment (m : Calendar.Moment)
  /-- A moment with an offset, in microseconds of universal time. -/
  | instant (micros : Int)
  | bytes (bs : List UInt8)
  deriving DecidableEq

namespace Scalar

/-- Numbers stand for each other if they are equal, with `true` and `false` as 1 and 0, and moments
with offsets if they are the same instant. There is one missing number. -/
def identity : Scalar → Identity
  | null => .null
  | bool b => .number (if b then 1 else 0)
  | int n => .number n
  | real x => match Decimal.Parts.of x with
    | .nan => .nan
    | .infinite negative => .infinite negative
    | .finite negative m e =>
      let (num, den) := Decimal.scaled m e
      .number (mkRat (if negative then -num else num) den)
  | text s => .text s
  | torn ps => .torn ps
  | date d => .date d
  | moment m => if m.offset.isSome then .instant m.universal else .moment m
  | bytes bs => .bytes bs

/-- Empty texts and bytes, zero, `false` and `null` count as absent. -/
def isPresent : Scalar → Bool
  | null => false
  | bool b => b
  | int n => n != 0
  | real x => x != 0
  | text s => !s.isEmpty
  | torn ps => !ps.isEmpty
  | date _ | moment _ => true
  | bytes bs => !bs.isEmpty

end Scalar

inductive Value
  | scalar (s : Scalar)
  | list (xs : List Value)
  /-- A key and its value as an item of a list. -/
  | pair (v w : Value)
  /-- Keys without values, in the order in which they are gone through. -/
  | set (keys : List Scalar)
  | object (fields : List (Scalar × Value))
  deriving Inhabited

instance : Coe Scalar Value := ⟨.scalar⟩

abbrev Fields := List (Scalar × Value)

/-- The value of a key among fields. -/
def lookup? (key : Scalar) : Fields → Option Value
  | [] => none
  | (k, v) :: fields => if k.identity = key.identity then some v else lookup? key fields

/-- A field set; a new key comes last, a known one stays as it is written. -/
def setField (key : Scalar) (v : Value) : Fields → Fields
  | [] => [(key, v)]
  | (k, w) :: fields =>
    if k.identity = key.identity then (k, v) :: fields else (k, w) :: setField key v fields

namespace Value

/-- Whatever is empty counts as absent. -/
def isPresent : Value → Bool
  | scalar s => s.isPresent
  | list xs => !xs.isEmpty
  | pair _ _ => true
  | set keys => !keys.isEmpty
  | object fields => !fields.isEmpty

/-- Whether the value could be a key. -/
def isKey : Value → Bool
  | scalar _ => true
  | pair v w => v.isKey && w.isKey
  | list _ | set _ | object _ => false

end Value

end Clipboard.Settings
