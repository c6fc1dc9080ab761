import Clipboard.Text.Split

/-!
Paths of files as their parts. Two paths that differ in empty parts or in `.` are the same path; a
path with `..` names what the path without it names.
-/

namespace Clipboard

structure FilePath where
  isAbsolute : Bool
  /-- The names between the slashes; none of them is empty or `.`. -/
  parts : List String
  deriving DecidableEq, Repr

namespace FilePath

def ofString (s : String) : FilePath where
  isAbsolute := s.toList.head? == some '/'
  parts := ((Text.pieces (· == '/') s.toList).filter fun p => !p.isEmpty && p != ['.']).map .ofList

/-- The path as it is written. -/
def text (p : FilePath) : String :=
  let joined := "/".intercalate p.parts
  if p.isAbsolute then "/" ++ joined else if p.parts.isEmpty then "." else joined

/-- The path of the folder in which it lies. -/
def parent (p : FilePath) : FilePath := { p with parts := p.parts.dropLast }

/-- The path and those of all folders above it, as far as it says. -/
def withFolders (p : FilePath) : List FilePath :=
  (List.range (p.parts.length + 1)).map fun n => { p with parts := p.parts.take n }

/-- The name at its end. -/
def name? (p : FilePath) : Option String := p.parts.getLast?

/-- The parts with each `..` undone; `done` are those before, the last one first. Above the start of
a relative path, `..` stays. -/
def resolve (isAbsolute : Bool) : List String → List String → List String
  | done, [] => done.reverse
  | done, part :: rest =>
    if part == ".." then
      match done with
      | [] => resolve isAbsolute (if isAbsolute then [] else [".."]) rest
      | last :: before =>
        if last == ".." then resolve isAbsolute (part :: done) rest
        else resolve isAbsolute before rest
    else resolve isAbsolute (part :: done) rest

/-- The path without `..`, as far as it can do without. -/
def resolved (p : FilePath) : FilePath := { p with parts := resolve p.isAbsolute [] p.parts }

/-- Whether the path leads to the folder where it starts, or to one above. -/
def isTop (p : FilePath) : Bool := p.resolved.parts.all (· == "..")

/-- The path with `~` at its start as the home directory. Other users have no known home. -/
def expandHome? (home : String) (p : FilePath) : Option FilePath :=
  match p.isAbsolute, p.parts with
  | false, first :: rest =>
    if first == "~" then some { ofString home with parts := (ofString home).parts ++ rest }
    else if first.toList.head? == some '~' then none
    else some p
  | _, _ => some p

/-- Whether a zero character, which no file name has, is in the path. -/
def hasZero (p : FilePath) : Bool := p.parts.any (·.toList.contains '\x00')

end FilePath

end Clipboard
