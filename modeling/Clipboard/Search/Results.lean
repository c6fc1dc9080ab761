import Clipboard.Search.Match
import Clipboard.Search.Query

/-!
The snippets that a filter finds, in order of their moments. Snippets of one moment keep their
order.
-/

namespace Clipboard

namespace Search

/-- The ways to look at a collection; all but one of them show everything. -/
def views : List String := ["all", "favorites"]

/-- Whether the moments can be compared: all have an offset or none has. -/
def comparable (ss : List Snippet) : Bool :=
  ss.all (·.moment.offset.isSome) || ss.all (·.moment.offset.isNone)

/-- Whether `a` may stand before `b`. -/
def inOrder (newestFirst : Bool) (a b : Snippet) : Bool :=
  if newestFirst then b.moment.universal ≤ a.moment.universal
  else a.moment.universal ≤ b.moment.universal

/-- The snippets by their moments, which have to be comparable. -/
def sorted (newestFirst : Bool) (ss : List Snippet) : Except Fault (List Snippet) :=
  if comparable ss then .ok (ss.mergeSort (inOrder newestFirst))
  else .error (.calendar .mixedOffsets)

/-- The snippets that pass, up to the first that cannot be decided. -/
def passing (p : Snippet → Except Fault Bool) : List Snippet → Except Fault (List Snippet)
  | [] => .ok []
  | s :: ss => do
    let keep ← p s
    let rest ← passing p ss
    return if keep then s :: rest else rest

end Search

open Search in
/-- The snippets that a filter finds in a view. The order of the filter goes before the other. -/
def Matcher.results (m : Matcher) (f : Filter) (ss : List Snippet) (view order : String) :
    Except Search.Fault (List Snippet) := do
  if !views.contains view then throw (.unknownView view)
  let order := (f.sortOrder.filter (!·.isEmpty)).getD order
  if !sortOrders.contains order then throw (.unknownOrder order)
  sorted (order == "newest") (← passing (fun s => m.accepts f s (view == "favorites")) ss)

end Clipboard
