import BackingField.FileSystem.Resolution
import BackingField.Sorting

/-!
# The file system

What a program sees of the machine: a tree, the directory it works in, and a limit on the size of
the files it writes.  It acts as the owner of everything, so reading a file or listing a directory
asks for the right to read it, writing for the right to write, and reaching anything in a directory
for the right to search it.
-/

namespace BackingField

/-- A tree of files as a program finds it. -/
structure FileSystem where
  /-- The topmost directory. -/
  tree : Node
  /-- The directory that paths start from. -/
  here : Location := []
  /-- Size that no file can grow beyond. -/
  writeLimit : Option Nat := none
  /-- Files opened for writing so far, the last one first. -/
  journal : List Location := []

namespace FileSystem

/-- The location that a path leads to. -/
def locate (fs : FileSystem) (path : Path) (follow : Bool) : Except IoError Location :=
  fs.tree.resolve fs.here { follow } path

/-- The node that a path leads to. -/
def node (fs : FileSystem) (path : Path) (follow : Bool) : Except IoError Node := do
  let location ← fs.locate path follow
  match fs.tree.at? location with
  | some node => .ok node
  | none => .error .noSuchEntry

/-- Kind of what a path names, a link being a kind of its own. -/
def kind (fs : FileSystem) (path : Path) : Except IoError Kind := do
  return (← fs.node path false).kind

/-- Kind of what a path leads to through all links. -/
def kindBehindLinks (fs : FileSystem) (path : Path) : Except IoError Kind := do
  return (← fs.node path true).kind

/-- Names and kinds of the entries of a directory, in no particular order. -/
def entries (fs : FileSystem) (path : Path) : Except IoError (List (Name × Kind)) := do
  match ← fs.node path true with
  | .directory mode entries =>
      if mode.read then .ok ((listed entries).map fun (name, node) => (name, node.kind))
      else .error .permissionDenied
  | _ => .error .notADirectory

/-- Contents of a file. -/
def read (fs : FileSystem) (path : Path) : Except IoError Bytes := do
  match ← fs.node path true with
  | .file mode content => if mode.read then .ok content else .error .permissionDenied
  | .directory mode _ => .error (if mode.read then .isADirectory else .permissionDenied)
  | .link _ => .error .tooManyLinks

/-- What is stored of the bytes written to a file, and the error that cuts them short. -/
def stored (limit : Option Nat) (bytes : Bytes) : Bytes × Except IoError Unit :=
  match limit with
  | some n => if n < bytes.length then (bytes.take n, .error .fileTooLarge) else (bytes, .ok ())
  | none => (bytes, .ok ())

/-- Put new contents into a file that exists.  When they are too long, as much as fits is stored and
the rest is lost. -/
def overwrite (fs : FileSystem) (path : Path) (bytes : Bytes) :
    FileSystem × Except IoError Unit :=
  match fs.locate path true with
  | .error e => (fs, .error e)
  | .ok location =>
      match fs.tree.at? location with
      | some (.file mode _) =>
          if mode.write then
            let (content, result) := stored fs.writeLimit bytes
            let tree := fs.tree.putAt location (.file mode content)
            ({ fs with tree, journal := location :: fs.journal }, result)
          else
            (fs, .error .permissionDenied)
      | some (.directory _ _) => (fs, .error .isADirectory)
      | _ => (fs, .error .noSuchEntry)

/-- Paths and contents of all files in a directory, ordered by the bytes of the paths, which start
from the directory. -/
def filesIn (fs : FileSystem) (directory : Location) : List (Path × Bytes) :=
  match fs.tree.at? directory with
  | some node =>
      sortBy (fun a b => Name.le a.1 b.1)
        (node.files.map fun (location, content) => (Path.ofNames location, content))
  | none => []

/-- Those of the files in a directory that were opened for writing. -/
def writtenIn (fs : FileSystem) (directory : Location) : List (Path × Bytes) :=
  let written := fs.journal.filterMap fun location => directory.isPrefixOf? location
  (fs.filesIn directory).filter fun (path, _) => written.any fun names => Path.ofNames names = path

end FileSystem
end BackingField
