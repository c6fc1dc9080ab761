import Clipboard.Store.Basic

/-!
A store as text: an object with a text for each key.
-/

namespace Clipboard.Store

/-- The text for the entries of a store. -/
def render (s : Store) : String :=
  (Json.object (s.entries.map fun (k, v) => (k, .text v))).render

/-- The entry that a field stands for; it has to hold a text. -/
def entryOf? : String × Json → Option (String × String)
  | (k, .text v) => some (k, v)
  | _ => none

/-- The store that a text stands for. -/
def parse? (text : String) : Option Store :=
  match Json.parse text.toList with
  | .ok (.object fields) => (fields.mapM entryOf?).map fun entries => { entries }
  | _ => none

end Clipboard.Store
