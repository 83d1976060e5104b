import BackingField.FileSystem.Basic

/-!
# Setting up a tree

Entries are put into a tree, removed from it and given modes without regard to the modes that are
there.  Directories on the way to a new entry are made as needed.
-/

namespace BackingField

/-- What is put at a path. -/
inductive Entry where
  | file (content : Bytes)
  | directory
  | link (target : Path)

namespace FileSystem

/-- A file system with a single directory, empty and ready to work in. -/
def single (name : Name) : FileSystem :=
  { tree := .directory Mode.newDirectory [(name, .directory Mode.newDirectory [])]
    here := [name] }

/-- The location of a directory that names lead to, with the tree in which it has been made. -/
def makeDirectories (tree : Node) (here : Location) :
    List Name → Except IoError (Node × Location)
  | [] => .ok (tree, here)
  | name :: rest =>
      match tree.resolve here { checked := false } name with
      | .ok location =>
          match tree.at? location with
          | some (.directory _ _) => makeDirectories tree location rest
          | _ => .error .alreadyExists
      | .error .noSuchEntry =>
          let location := here ++ [name]
          if (tree.at? location).isSome then
            .error .alreadyExists
          else
            makeDirectories (tree.putAt location (.directory Mode.newDirectory [])) location rest
      | .error e => .error e

/-- Put a file at a path in a directory.  A file that exists gets new contents and keeps its mode. -/
def putFile (tree : Node) (directory : Location) (path : Path) (content : Bytes) :
    Except IoError Node := do
  let location ← tree.resolve directory { create := true, checked := false } path
  match tree.at? location with
  | some (.file mode _) => return tree.putAt location (.file mode content)
  | none => return tree.putAt location (.file Mode.newFile content)
  | some _ => .error .isADirectory

/-- Put an entry at a path.  A directory that exists stays as it is. -/
def put (fs : FileSystem) (path : Path) (entry : Entry) : Except IoError FileSystem := do
  let names := Path.names path
  match entry with
  | .directory =>
      let (tree, _) ← makeDirectories fs.tree fs.here names
      return { fs with tree }
  | .file content =>
      let (tree, directory) ← makeDirectories fs.tree fs.here names.dropLast
      let tree ← putFile tree directory (Path.lastName path) content
      return { fs with tree }
  | .link target =>
      let (tree, directory) ← makeDirectories fs.tree fs.here names.dropLast
      let location := directory ++ [Path.lastName path]
      if (tree.at? location).isSome then .error .alreadyExists
      else return { fs with tree := tree.putAt location (.link target) }

/-- Give what a path leads to a mode. -/
def setMode (fs : FileSystem) (path : Path) (mode : Mode) : Except IoError FileSystem := do
  let location ← fs.tree.resolve fs.here { checked := false } path
  match fs.tree.at? location with
  | some node => return { fs with tree := fs.tree.putAt location (node.withMode mode) }
  | none => .error .noSuchEntry

/-- Remove what a path names, and all that is in it. -/
def remove (fs : FileSystem) (path : Path) : Except IoError FileSystem := do
  let location ← fs.tree.resolve fs.here { follow := false, checked := false } path
  return { fs with tree := fs.tree.removeAt location }

/-- Work in the directory that a path leads to. -/
def enter (fs : FileSystem) (path : Path) : Except IoError FileSystem := do
  let location ← fs.locate path true
  match fs.tree.at? location with
  | some (.directory mode _) =>
      if mode.search then return { fs with here := location } else .error .permissionDenied
  | _ => .error .notADirectory

end FileSystem
end BackingField
