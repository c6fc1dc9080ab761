import Clipboard.Cli.Render

/-!
What is printed, as plain text: marks for style are left out, the columns of a table are lined up,
and a panel stands below its title.
-/

namespace Clipboard.Cli

/-- The names of styles that stand in brackets, and the mark that ends one. -/
def styleMarks : List String :=
  ["/", "bold", "dim", "red", "green", "yellow", "cyan", "blue", "magenta", "bright_blue", "white"]

/-- The length of the mark at the start of a text, if there is one. -/
def markLength? (cs : List Char) : Option Nat :=
  styleMarks.findSome? fun name =>
    let mark := '[' :: name.toList ++ [']']
    if mark.isPrefixOf cs then some mark.length else none

/-- The text without its marks; `skipped` characters are still to be left out. -/
def withoutMarks (skipped : Nat) : List Char → List Char
  | [] => []
  | c :: cs =>
    match skipped with
    | n + 1 => withoutMarks n cs
    | 0 => match markLength? (c :: cs) with
      | some n => withoutMarks (n - 1) cs
      | none => c :: withoutMarks 0 cs

def plainText (s : String) : String := .ofList (withoutMarks 0 s.toList)

/-- The longest text of each column. -/
def widthsOf (rows : List (List String)) : List Nat :=
  let count := (rows.map (·.length)).foldl max 0
  (List.range count).map fun i => (rows.map fun r => ((r[i]?).getD "").length).foldl max 0

/-- A row with its columns lined up. -/
def alignedRow (widths : List Nat) (row : List String) : String :=
  "  ".intercalate ((row.zip widths).map fun (s, w) => s.pushn ' ' (w - s.length))

def alignedRows (rows : List (List String)) : List String :=
  let plain := rows.map (·.map plainText)
  plain.map (alignedRow (widthsOf plain))

/-- The lines of what is printed. -/
def Printed.lines : Printed → List String
  | .text s => [plainText s]
  | .panel body title => [plainText title, "", plainText body]
  | .table title columns rows => title.toList ++ alignedRows (columns.toList ++ rows)

end Clipboard.Cli
