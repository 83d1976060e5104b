import BackingField.FileSystem.Path
import BackingField.Sorting

/-!
# Settings of a walk

Where to look for files, which directories to leave out, and what the names of the files end in.
-/

namespace BackingField

/-- Settings of a walk. -/
structure Settings where
  /-- Where the walk starts. -/
  root : Path
  /-- Names of directories that are left out, ascending and without repetition. -/
  excluded : List Text
  /-- What the name of a file must end in. -/
  extension : Text
deriving DecidableEq

namespace Settings

/-- The directory that a walk starts from unless told otherwise. -/
def defaultRoot : Text := ".".toList

/-- Directories that are left out unless told otherwise: build output, generated project properties
and the files of version control. -/
def defaultExcluded : List Text :=
  ["bin".toList, "obj".toList, "Properties".toList, ".git".toList]

/-- Ending of the files that are looked for unless told otherwise. -/
def defaultExtension : Text := ".cs".toList

/-- Remove neighbours that are equal. -/
def dropRepeats : List Text → List Text
  | a :: b :: rest => if a = b then dropRepeats (b :: rest) else a :: dropRepeats (b :: rest)
  | short => short

/-- Names as a set: in the order of their bytes and each only once. -/
def nameSet (names : List Text) : List Text :=
  dropRepeats (sortBy (fun a b => Name.le (Utf8.encode a) (Utf8.encode b)) names)

/-- Settings that hold unless told otherwise. -/
def standard : Settings :=
  ⟨Path.ofText defaultRoot, nameSet defaultExcluded, defaultExtension⟩

/-- Whether a directory of the given name is left out.  Case counts. -/
def excludes (s : Settings) (name : Text) : Bool :=
  s.excluded.contains name

/-- Whether a directory is pruned.  A name that is not UTF-8 is never excluded. -/
def prunes (s : Settings) (name : Name) : Bool :=
  match Utf8.decode? name with
  | some text => s.excludes text
  | none => false

/-- Whether a file of the given name is looked for. -/
def accepts (s : Settings) (name : Name) : Bool :=
  s.extension.isSuffixOf (Utf8.decodeLossy name)

/-- Whether two settings are the same, their roots read name by name. -/
def same (s t : Settings) : Bool :=
  Path.same s.root t.root && s.excluded == t.excluded && s.extension == t.extension

end Settings
end BackingField
