import BackingField.FileSystem.Path

/-!
# Trees of files and directories

A node is a file, a directory with named nodes in it, or a symbolic link.  The place of a node is
the list of names that leads to it from the top.  Of several entries of one name only the first
counts, and an entry with a name that no path can spell does not count at all.

Every file has exactly one name.  There are no hard links, so what is written at one place is seen at
no other, unless a symbolic link leads to it.  A mode is only the owner's three permission bits, so
there are no others that a write could clear.  What holds of a whole run rests on both.
-/

namespace BackingField

/-- What the owner may do with a file or directory. -/
structure Mode where
  /-- Read the file, or list the directory. -/
  read : Bool
  /-- Write the file. -/
  write : Bool
  /-- Reach what is in the directory. -/
  search : Bool
deriving DecidableEq

namespace Mode

/-- Mode of a new file. -/
def newFile : Mode := ⟨true, true, false⟩

/-- Mode of a new directory. -/
def newDirectory : Mode := ⟨true, true, true⟩

/-- Mode given by permission bits, of which only the three of the owner count. -/
def ofBits (bits : Nat) : Mode :=
  let owner := bits / 64 % 8
  ⟨owner / 4 % 2 = 1, owner / 2 % 2 = 1, owner % 2 = 1⟩

end Mode

/-- A file, a directory or a symbolic link. -/
inductive Node where
  | file (mode : Mode) (content : Bytes)
  | directory (mode : Mode) (entries : List (Name × Node))
  | link (target : Path)

/-- The three kinds of nodes. -/
inductive Kind where
  | file
  | directory
  | link
deriving DecidableEq

/-- Names from the top of a tree down to a node. -/
abbrev Location := List Name

/-- The node of a given name among entries. -/
def childNamed? (entries : List (Name × Node)) (name : Name) : Option Node :=
  (entries.find? fun entry => entry.1 = name).map Prod.snd

/-- The entries that count, in the order in which they are stored. -/
def listed : List (Name × Node) → List (Name × Node)
  | [] => []
  | entry :: rest =>
      let others := (listed rest).filter fun other => other.1 ≠ entry.1
      if entry.1.isProper then entry :: others else others

/-- Entries with the node of a given name replaced, or put behind the others if there is none. -/
def putChild (entries : List (Name × Node)) (name : Name) (node : Node) : List (Name × Node) :=
  match entries with
  | [] => [(name, node)]
  | entry :: rest =>
      if entry.1 = name then (name, node) :: rest else entry :: putChild rest name node

namespace Node

/-- Kind of a node. -/
def kind : Node → Kind
  | file _ _ => .file
  | directory _ _ => .directory
  | link _ => .link

/-- The node at a location. -/
def at? (node : Node) : Location → Option Node
  | [] => some node
  | name :: rest =>
      match node with
      | directory _ entries => (childNamed? entries name).bind fun child => child.at? rest
      | _ => none

/-- The tree with another node at a location, whose directory must be there. -/
def putAt (tree : Node) (location : Location) (node : Node) : Node :=
  match location with
  | [] => node
  | [name] =>
      match tree with
      | directory mode entries => directory mode (putChild entries name node)
      | other => other
  | name :: rest =>
      match tree with
      | directory mode entries =>
          match childNamed? entries name with
          | some child => directory mode (putChild entries name (child.putAt rest node))
          | none => tree
      | other => other

/-- The tree without the node at a location. -/
def removeAt (tree : Node) (location : Location) : Node :=
  match location, tree with
  | [name], directory mode entries => directory mode (entries.filter fun entry => entry.1 ≠ name)
  | name :: rest, directory mode entries =>
      match childNamed? entries name with
      | some child => directory mode (putChild entries name (child.removeAt rest))
      | none => tree
  | _, _ => tree

/-- The node with another mode.  A link has none. -/
def withMode (node : Node) (mode : Mode) : Node :=
  match node with
  | file _ content => file mode content
  | directory _ entries => directory mode entries
  | link target => link target

mutual

/-- Number of nodes in a tree. -/
def count : Node → Nat
  | file _ _ => 1
  | directory _ entries => countAll entries + 1
  | link _ => 1

/-- Number of nodes in all entries of a directory. -/
def countAll : List (Name × Node) → Nat
  | [] => 0
  | entry :: rest => countEntry entry + countAll rest

/-- Number of nodes in one entry of a directory. -/
def countEntry : Name × Node → Nat
  | (_, node) => node.count

end

mutual

/-- Locations and contents of all files in a tree. -/
def files : Node → List (Location × Bytes)
  | file _ content => [([], content)]
  | directory _ entries => filesOfAll entries
  | link _ => []

/-- Locations and contents of all files in the entries of a directory. -/
def filesOfAll : List (Name × Node) → List (Location × Bytes)
  | [] => []
  | entry :: rest => filesOfEntry entry ++ filesOfAll rest

/-- Locations and contents of all files in one entry of a directory. -/
def filesOfEntry : Name × Node → List (Location × Bytes)
  | (name, node) => node.files.map fun (location, content) => (name :: location, content)

end

end Node
end BackingField
