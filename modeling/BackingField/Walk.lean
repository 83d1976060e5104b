import BackingField.Event
import BackingField.FileSystem.Basic
import BackingField.Settings

/-!
# Walking a tree

The walk goes through a directory in the order of the names in it, and through a directory in it
when its turn comes.  It is a list of items still to be visited: a visit takes the first item, asks
the file system one question about it, and may put new items in its place.  So the walk can be
interrupted after every visit, and goes on with what the file system holds then.

Links are followed only at the root.  The root is never pruned, and pruned directories are never
asked about.
-/

namespace BackingField
namespace Walk

/-- Something still to be visited. -/
inductive Item where
  /-- The path that the walk starts from. -/
  | root (path : Path)
  /-- A link that the walk starts from. -/
  | linkedRoot (path : Path)
  /-- A directory to be listed. -/
  | directory (path : Path)
  /-- A file that is looked for. -/
  | file (path : Path)
deriving DecidableEq

/-- Something the walk came upon. -/
inductive Finding where
  /-- A file that is looked for. -/
  | candidate (path : Path)
  /-- Something that could not be looked at. -/
  | unreadable (path : Path) (cause : IoError)
deriving DecidableEq

/-- Outcome of a visit: what was found, and what is to be visited next. -/
structure Visit where
  finding : Option Finding := none
  items : List Item := []

/-- Visit of the root, whose kind is given. -/
def visitRoot (settings : Settings) (path : Path) : Except IoError Kind → Visit
  | .ok .directory => { items := [.directory path] }
  | .ok .link => { items := [.linkedRoot path] }
  | .ok .file => { items := if settings.accepts path.lastName then [.file path] else [] }
  | .error cause => { finding := some (.unreadable path cause) }

/-- Visit of a link at the root, with the kind of what is behind it.  Only a directory is walked. -/
def visitLinkedRoot (path : Path) : Except IoError Kind → Visit
  | .ok .directory => { items := [.directory path] }
  | .ok _ => {}
  | .error cause => { finding := some (.unreadable path cause) }

/-- The item for an entry of a directory, unless it is of no interest. -/
def itemOf (settings : Settings) (directory : Path) (entry : Name × Kind) : Option Item :=
  let (name, kind) := entry
  match kind with
  | .directory => if settings.prunes name then none else some (.directory (directory.join name))
  | .file => if settings.accepts name then some (.file (directory.join name)) else none
  | .link => none

/-- Visit of a directory, whose entries are given. -/
def visitDirectory (settings : Settings) (path : Path) :
    Except IoError (List (Name × Kind)) → Visit
  | .ok entries =>
      let sorted := sortBy (fun a b => Name.le a.1 b.1) entries
      { items := sorted.filterMap (itemOf settings path) }
  | .error cause => { finding := some (.unreadable path cause) }

/-- Visit of an item in a file system. -/
def visit (settings : Settings) (fs : FileSystem) : Item → Visit
  | .root path => visitRoot settings path (fs.kind path)
  | .linkedRoot path => visitLinkedRoot path (fs.kindBehindLinks path)
  | .directory path => visitDirectory settings path (fs.entries path)
  | .file path => { finding := some (.candidate path) }

/-- What there is to visit before the walk begins. -/
def start (settings : Settings) : List Item :=
  [.root settings.root]

/-- Bound on the number of visits: each node of the tree once, and the root up to three times. -/
def visitBound (fs : FileSystem) : Nat :=
  fs.tree.count + 3

/-- Findings of at most the given number of visits. -/
def findings (settings : Settings) (fs : FileSystem) : (visits : Nat) → List Item → List Finding
  | 0, _ => []
  | _, [] => []
  | visits + 1, item :: items =>
      let v := visit settings fs item
      v.finding.toList ++ findings settings fs visits (v.items ++ items)

/-- Findings up to and including the `n`-th candidate. -/
def upTo : (n : Nat) → List Finding → List Finding
  | 0, _ => []
  | _, [] => []
  | n + 1, .candidate path :: rest => .candidate path :: upTo n rest
  | n + 1, found :: rest => found :: upTo (n + 1) rest

/-- The candidates among findings. -/
def candidates (found : List Finding) : List Path :=
  found.filterMap fun
    | .candidate path => some path
    | .unreadable _ _ => none

/-- The events among findings. -/
def events (found : List Finding) : List Event :=
  found.filterMap fun
    | .candidate _ => none
    | .unreadable path cause => some (.unreadable path cause)

end Walk

/-- All findings of a walk, in order. -/
def walk (settings : Settings) (fs : FileSystem) : List Walk.Finding :=
  Walk.findings settings fs (Walk.visitBound fs) (Walk.start settings)

end BackingField
