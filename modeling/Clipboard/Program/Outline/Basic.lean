import Clipboard.Program.Outline.Value

/-!
Files of settings as outlines: a key and a value on each line, deeper lines below a key, items
after dashes, and comments. Of the notation this reads the part that such files need, without texts
over several lines, anchors and types; what settings come to is told for every value.
-/

namespace Clipboard.Program.Outline

open Settings (Fields Scalar Value)
open Text

structure Line where
  indent : Nat
  text : List Char

/-- The lines that say something. -/
def linesOf (cs : List Char) : List Line :=
  ((lines cs).map fun l => ⟨(l.takeWhile (· == ' ')).length, trim l⟩).filter
    fun l => !isSilent l.text

/-- The key of a line and what follows its colon. -/
def key? (cs : List Char) : Option (Scalar × List Char) := do
  let (key, rest) ← match readQuoted? cs with
    | some (key, rest) => some (.text (.ofList key), skipBlanks rest)
    | none => (cutAtColon [] cs).map fun (key, rest) => (plain key, rest)
  match rest with
  | ':' :: rest =>
    if rest.head?.all (· == ' ') then some (key, skipBlanks rest) else none
  | _ => none
where
  /-- The text before a colon that ends a key, and the rest from there on. -/
  cutAtColon (before : List Char) : List Char → Option (List Char × List Char)
    | [] => none
    | ' ' :: '#' :: _ => none
    | c :: cs =>
      if c == ':' && cs.head?.all (· == ' ') then some (trim before.reverse, c :: cs)
      else cutAtColon (c :: before) cs

/-- What follows the dash of an item, and how far it is from the dash. -/
def item? : List Char → Option (Nat × List Char)
  | '-' :: cs =>
    if cs.head?.all (· == ' ') then some (1 + (cs.takeWhile (· == ' ')).length, skipBlanks cs)
    else none
  | _ => none

/-- Whether a line begins a list or an object. -/
def beginsBlock (cs : List Char) : Bool := (item? cs).isSome || (key? cs).isSome

mutual

/-- The value of the lines at an indent, and the lines behind it; `fuel` bounds the characters. -/
def block? (fuel : Nat) (indent : Nat) (ls : List Line) : Option (Value × List Line) :=
  match fuel, ls with
  | 0, _ | _, [] => none
  | fuel + 1, l :: rest =>
    if (item? l.text).isSome then
      (items? fuel indent ls).map fun (vs, rest) => (.list vs, rest)
    else if (key? l.text).isSome then
      (fields? fuel indent ls).map fun (fs, rest) => (.object fs, rest)
    else (lineValue? l.text).map (·, rest)

/-- The items at an indent. What follows a dash may begin a block of its own. -/
def items? (fuel : Nat) (indent : Nat) (ls : List Line) : Option (List Value × List Line) :=
  match fuel, ls with
  | fuel + 1, l :: rest =>
    if l.indent != indent then some ([], ls)
    else match item? l.text with
      | none => some ([], ls)
      | some (distance, text) => do
        let deeper := rest.head?.any (indent < ·.indent)
        let (v, rest) ←
          if beginsBlock text then block? fuel (indent + distance) (⟨indent + distance, text⟩ :: rest)
          else if isSilent text && deeper then
            block? fuel ((rest.head?.map (·.indent)).getD 0) rest
          else (lineValue? text).map (·, rest)
        let (vs, rest) ← items? fuel indent rest
        return (v :: vs, rest)
  | _, _ => some ([], ls)

/-- The fields at an indent. -/
def fields? (fuel : Nat) (indent : Nat) (ls : List Line) :
    Option (Fields × List Line) :=
  match fuel, ls with
  | fuel + 1, l :: rest =>
    if l.indent != indent then some ([], ls)
    else match key? l.text with
      | none => some ([], ls)
      | some (key, text) => do
        let deeper := rest.head?.any fun n => indent < n.indent ||
          (indent == n.indent && (item? n.text).isSome)
        let (v, rest) ←
          if isSilent text && deeper then block? fuel ((rest.head?.map (·.indent)).getD 0) rest
          else (lineValue? text).map (·, rest)
        let (fields, rest) ← fields? fuel indent rest
        return (addField key v fields, rest)
  | _, _ => some ([], ls)

end

/-- The value of a file; an empty one holds nothing. Three dashes may stand above it. -/
def parse? (s : String) : Option Value :=
  let ls := match linesOf s.toList with
    | ⟨0, ['-', '-', '-']⟩ :: ls => ls
    | ls => ls
  match ls with
  | [] => some (.scalar .null)
  | l :: _ => match block? (2 * s.length + 2) l.indent ls with
    | some (v, []) => some v
    | _ => none

end Clipboard.Program.Outline
