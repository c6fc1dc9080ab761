/-!
The start of a text, counted from its beginning or, with a negative number, from its end.
-/

namespace Clipboard.Text

/-- The first `n` characters, or with a negative `n` all but the last ones. -/
def takeFirst (n : Int) (cs : List Char) : List Char :=
  if 0 ≤ n then cs.take n.toNat else cs.take (cs.length - n.natAbs)

end Clipboard.Text
