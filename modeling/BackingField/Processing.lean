import BackingField.Event
import BackingField.Expansion
import BackingField.FileSystem.Basic

/-!
# Processing one file

A file is read, its properties are expanded, and if there are any it is written back, unless nothing
is to be written at all.  A file without properties is never written.
-/

namespace BackingField

/-- What became of a file. -/
structure Outcome where
  /-- How many properties were expanded. -/
  properties : Nat
  /-- Text before. -/
  before : Text
  /-- Text after, if a property was expanded. -/
  after : Option Text
deriving DecidableEq

/-- Whether a property was expanded. -/
def Outcome.isModified (o : Outcome) : Bool :=
  o.after.isSome

namespace Processing

/-- What is to be done with a file. -/
inductive Plan where
  /-- Nothing can be done. -/
  | fail (error : FileError)
  /-- Nothing is to be done. -/
  | leave (text : Text)
  /-- The text is to be replaced. -/
  | replace (text : Text) (expansion : Expansion)

/-- Plan for a file of which the contents are given. -/
def plan (path : Path) : Except IoError Bytes → Plan
  | .error cause => .fail (.read path cause)
  | .ok bytes =>
      match Utf8.decode? bytes with
      | none => .fail (.read path .notUtf8)
      | some text =>
          match expand text with
          | .error fault => .fail (.splice path fault)
          | .ok expansion =>
              if expansion.properties = 0 then .leave text else .replace text expansion

/-- Result of processing a file, with the events on the way. -/
structure Result where
  outcome : Except FileError Outcome
  events : List Event

/-- Result for a file that is left alone because of an error. -/
def failed (error : FileError) : Result :=
  ⟨.error error, []⟩

/-- Result for a file without properties. -/
def left (path : Path) (text : Text) : Result :=
  ⟨.ok ⟨0, text, none⟩, [.nothingToDo path]⟩

/-- Result for a file with properties, given how writing it went. -/
def replaced (path : Path) (mode : WriteMode) (text : Text) (expansion : Expansion) :
    Except IoError Unit → Result
  | .ok _ =>
      ⟨.ok ⟨expansion.properties, text, some expansion.text⟩,
        [.expanded path expansion.properties mode]⟩
  | .error cause => failed (.write path cause)

end Processing

/-- Process the file that a path leads to. -/
def process (fs : FileSystem) (path : Path) (mode : WriteMode) :
    FileSystem × Processing.Result :=
  match Processing.plan path (fs.read path) with
  | .fail error => (fs, Processing.failed error)
  | .leave text => (fs, Processing.left path text)
  | .replace text expansion =>
      match mode with
      | .dryRun => (fs, Processing.replaced path mode text expansion (.ok ()))
      | .apply =>
          let (fs, written) := fs.overwrite path (Utf8.encode expansion.text)
          (fs, Processing.replaced path mode text expansion written)

end BackingField
