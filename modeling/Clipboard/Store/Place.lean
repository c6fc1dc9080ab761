import Clipboard.Store.FilePath

/-!
Where a store can be: what a path leads to, and the folders that are made on the way.
-/

namespace Clipboard

/-- Why there is no store at a path. -/
inductive PathFault
  /-- The home of a user is not known. -/
  | noHome
  | zeroCharacter
  /-- A folder is wanted where a file is. -/
  | folderIsFile
  /-- The path leads on behind a file. -/
  | belowFile
  | longName
  /-- A folder, or a file that cannot be opened. -/
  | notOpened
  /-- The file there holds something else. -/
  | notStore
  deriving DecidableEq, Repr

def PathFault.message : PathFault → String
  | noHome => "Could not determine home directory."
  | zeroCharacter => "embedded null byte"
  | folderIsFile => "File exists"
  | belowFile => "Not a directory"
  | longName => "File name too long"
  | notOpened => "unable to open database file"
  | notStore => "file is not a database"

/-- What is known of the disk, by the texts of resolved paths. -/
structure Disk where
  stores : List String := []
  /-- Files that are no stores. -/
  others : List String := []
  folders : List String := []

namespace Disk

/-- The most bytes that a name can have. -/
def maxName : Nat := 255

/-- The most bytes for the name of a store; beside it there are files with longer names. -/
def maxStoreName : Nat := maxName - "-journal".utf8ByteSize

def isFile (d : Disk) (p : FilePath) : Bool :=
  d.stores.contains p.resolved.text || d.others.contains p.resolved.text

def isFolder (d : Disk) (p : FilePath) : Bool :=
  p.isTop || d.folders.contains p.resolved.text

/-- Goes from the folder `p` along the names and makes the folders that are not there; `made` says
whether `p` is new. Gives the folders made, also those before a fault. -/
def makeFolders (d : Disk) (made : Bool) (p : FilePath) :
    List String → Except PathFault Unit × List String
  | [] => (.ok (), [])
  | name :: names =>
    let next : FilePath := { p with parts := p.parts ++ [name] }
    if maxName < name.utf8ByteSize then (.error .longName, [])
    else if d.isFile next then
      (.error (if made || names.isEmpty then .folderIsFile else .belowFile), [])
    else if d.isFolder next then makeFolders d made next names
    else
      let (r, folders) := makeFolders d true next names
      (r, next.resolved.text :: folders)

/-- Whether a store is or can be at a path whose folder is there. -/
def checkFile (d : Disk) (p : FilePath) : Except PathFault Unit :=
  if p.hasZero then .error .zeroCharacter
  else if d.isFolder p || p.name?.any (maxStoreName < ·.utf8ByteSize) then .error .notOpened
  else if d.others.contains p.resolved.text then .error .notStore
  else .ok ()

/-- Goes to the folder of a path. Gives the folders made on the way. -/
def reachFolder (d : Disk) (p : FilePath) : Except PathFault Unit × List String :=
  if p.parent.hasZero then (.error .zeroCharacter, [])
  else d.makeFolders false { p with parts := [] } p.parent.parts

/-- Goes to the store at a path. Gives the folders made on the way. -/
def reach (d : Disk) (p : FilePath) : Except PathFault Unit × List String :=
  match d.reachFolder p with
  | (.ok (), folders) => (checkFile { d with folders := folders ++ d.folders } p, folders)
  | (.error f, folders) => (.error f, folders)

end Disk

end Clipboard
