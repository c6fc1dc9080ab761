import Clipboard.Text.Quoted

/-!
Identifiers: sixteen bytes in hexadecimal, in groups with dashes between them. Six bits are fixed
and say that the others are random.
-/

namespace Clipboard.Identifier

/-- The bytes with the fixed bits set. -/
def marked (bytes : List UInt8) : List UInt8 :=
  bytes.mapIdx fun i b =>
    if i == 6 then b % 16 + 64 else if i == 8 then b % 64 + 128 else b

/-- Where the dashes stand, counted in bytes. -/
def groupEnds : List Nat := [4, 6, 8, 10]

/-- The identifier made of sixteen bytes. -/
def ofBytes (bytes : List UInt8) : String :=
  .ofList ((marked bytes).mapIdx fun i b =>
    (if groupEnds.contains i then ['-'] else []) ++ Text.hex 2 b.toNat).flatten

end Clipboard.Identifier
