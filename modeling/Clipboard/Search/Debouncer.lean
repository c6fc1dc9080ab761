/-!
Keeps the latest of the values that come in quick succession until nothing came for a while. What
is superseded is lost.
-/

namespace Clipboard

/-- Waits for `delay` after each value. Times are of any kind that can be added and compared. -/
structure Debouncer (τ α : Type) where
  delay : τ
  /-- The value that waits, and when it is due. -/
  pending : Option (α × τ) := none
  /-- How many values were superseded. -/
  superseded : Nat := 0

namespace Debouncer

variable {τ α : Type}

def submit [Add τ] (d : Debouncer τ α) (v : α) (now : τ) : Debouncer τ α :=
  { d with
    pending := some (v, now + d.delay)
    superseded := if d.pending.isSome then d.superseded + 1 else d.superseded }

/-- The pending value, due or not. -/
def flush (d : Debouncer τ α) : Option α × Debouncer τ α :=
  (d.pending.map (·.1), { d with pending := none })

/-- The pending value if it is due. -/
def poll [LT τ] [DecidableLT τ] (d : Debouncer τ α) (now : τ) : Option α × Debouncer τ α :=
  match d.pending with
  | some (_, due) => if now < due then (none, d) else d.flush
  | none => (none, d)

end Debouncer

end Clipboard
