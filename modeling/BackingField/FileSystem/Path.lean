import BackingField.Text.Utf8

/-!
# Paths

A path is a sequence of bytes, and slashes divide it into names.  Names need not be UTF-8; where a
path is shown, what is malformed in it is replaced.
-/

namespace BackingField

/-- Name of an entry of a directory. -/
abbrev Name := Bytes

/-- Path as given to the file system. -/
abbrev Path := Bytes

namespace Name

/-- The name of a directory in itself. -/
def self : Name := Utf8.encode ".".toList

/-- The name of the directory above in a directory. -/
def parent : Name := Utf8.encode "..".toList

/-- Names are ordered byte by byte. -/
def le (a b : Name) : Bool :=
  (compare a b).isLE

/-- The byte between names in a path. -/
def slash : UInt8 := 0x2F

/-- Longest name, in bytes. -/
def maxLength : Nat := 255

/-- Whether a path can lead to an entry of this name. -/
def isProper (name : Name) : Bool :=
  !name.isEmpty && name != self && name != parent && !name.contains slash && !name.contains 0 &&
    name.length ≤ maxLength

end Name

namespace Path

open Name (slash)

/-- Path given by a text. -/
def ofText (t : Text) : Path :=
  Utf8.encode t

/-- Path as it is shown. -/
def shown (p : Path) : Text :=
  Utf8.decodeLossy p

/-- Whether a path starts at the root of the machine. -/
def isAbsolute (p : Path) : Bool :=
  p.head? == some slash

/-- Whether a path ends in a slash, and so can only name a directory. -/
def hasTrailingSlash (p : Path) : Bool :=
  p.getLast? == some slash

/-- What stands before, between and behind the slashes. -/
def pieces : Path → List Bytes
  | [] => [[]]
  | b :: p =>
      if b = slash then
        [] :: pieces p
      else
        match pieces p with
        | [] => [[b]]
        | piece :: rest => (b :: piece) :: rest

/-- Names in a path.  Slashes in a row count as one. -/
def names (p : Path) : List Name :=
  (pieces p).filter fun piece => !piece.isEmpty

/-- Last name in a path. -/
def lastName (p : Path) : Name :=
  (names p).getLast?.getD p

/-- Path of an entry of a directory.  A slash goes between the two unless there is one. -/
def join (directory : Path) (name : Name) : Path :=
  match directory.getLast? with
  | none => name
  | some b => if b = slash then directory ++ name else directory ++ slash :: name

/-- Names with a slash between them. -/
def ofNames (names : List Name) : Path :=
  [slash].intercalate names

/-- The names that tell two paths apart.  Beyond the first place, the name of a directory in itself
does not count. -/
def essence (p : Path) : List Name :=
  match isAbsolute p, names p with
  | false, first :: rest => first :: rest.filter (· ≠ Name.self)
  | _, all => all.filter (· ≠ Name.self)

/-- Whether two paths are the same when read name by name. -/
def same (p q : Path) : Bool :=
  isAbsolute p == isAbsolute q && essence p == essence q

end Path
end BackingField
