import BackingField.FileSystem.Error
import BackingField.FileSystem.Node

/-!
# From a path to a location

A path is followed name by name.  Before a name is looked up, the directory it is looked up in must
be one that may be searched.  A link in the middle of a path is always followed, a link at its end
if that is asked for or if the path ends in a slash.  At most forty links are followed.  Above the
topmost directory there is only itself.
-/

namespace BackingField

/-- How the end of a path is treated, and whether modes count. -/
structure Lookup where
  /-- Follow a link at the end of the path. -/
  follow : Bool := true
  /-- Only a directory will do. -/
  directoryOnly : Bool := false
  /-- Accept the place for a new file at the end of the path. -/
  create : Bool := false
  /-- Refuse to look into a directory that may not be searched. -/
  checked : Bool := true

/-- Number of bytes that a path must stay below. -/
def pathLimit : Nat := 4096

/-- How many links are followed on the way through one path. -/
def maxLinks : Nat := 40

/-- How the end of a path is treated when it is a link with the given target. -/
def Lookup.through (lookup : Lookup) (target : Path) : Lookup :=
  { lookup with
    follow := true
    directoryOnly := lookup.directoryOnly || Path.hasTrailingSlash target }

/-- The directory from which the names of a path are followed. -/
def Path.origin (here : Location) (path : Path) : Location :=
  if Path.isAbsolute path then [] else here

namespace Node

/-- The location that names lead to from a directory of the tree, where `jump` goes on when a link is
to be followed. -/
def follow (tree : Node) (jump : Lookup → Location → List Name → Except IoError Location)
    (lookup : Lookup) (here : Location) : List Name → Except IoError Location
  | [] => .ok here
  | name :: rest =>
      match tree.at? here with
      | some (.directory mode entries) =>
          if lookup.checked && !mode.search then
            .error .permissionDenied
          else if name = Name.self then
            tree.follow jump lookup here rest
          else if name = Name.parent then
            tree.follow jump lookup here.dropLast rest
          else if Name.maxLength < name.length then
            .error .nameTooLong
          else
            match childNamed? entries name with
            | none =>
                if rest.isEmpty && lookup.create && !lookup.directoryOnly then .ok (here ++ [name])
                else .error .noSuchEntry
            | some (.directory _ _) => tree.follow jump lookup (here ++ [name]) rest
            | some (.file _ _) =>
                if rest.isEmpty && !lookup.directoryOnly then .ok (here ++ [name])
                else .error .notADirectory
            | some (.link target) =>
                if rest.isEmpty then
                  if lookup.follow || lookup.directoryOnly then
                    jump (lookup.through target) (Path.origin here target) (Path.names target)
                  else
                    .ok (here ++ [name])
                else
                  jump lookup (Path.origin here target) (Path.names target ++ rest)
      | some _ => .error .notADirectory
      | none => .error .noSuchEntry

/-- The location that names lead to when at most the given number of links is followed. -/
def locate (tree : Node) : (links : Nat) → Lookup → Location → List Name → Except IoError Location
  | 0 => tree.follow fun _ _ _ => .error .tooManyLinks
  | links + 1 => tree.follow (tree.locate links)

/-- The location that a path leads to from a directory of the tree.  A path that ends in a slash
leads only to a directory. -/
def resolve (tree : Node) (here : Location) (lookup : Lookup) (path : Path) :
    Except IoError Location :=
  if path.contains 0 then
    .error .zeroByte
  else if path.isEmpty then
    .error .noSuchEntry
  else if pathLimit ≤ path.length then
    .error .nameTooLong
  else
    let directoryOnly := lookup.directoryOnly || Path.hasTrailingSlash path
    tree.locate maxLinks { lookup with directoryOnly } (Path.origin here path) (Path.names path)

end Node
end BackingField
