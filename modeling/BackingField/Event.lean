import BackingField.FileSystem.Error
import BackingField.FileSystem.Path
import BackingField.Splice

/-!
# Events

What is reported on the way, apart from the output proper: each event has a level, a message and
fields with values.  A log shows the events up to a level.
-/

namespace BackingField

/-- Whether changed files are written. -/
inductive WriteMode where
  | apply
  | dryRun
deriving DecidableEq

/-- Name of a mode in a log. -/
def WriteMode.name : WriteMode → Text
  | apply => "Apply".toList
  | dryRun => "DryRun".toList

/-- Why a file could not be dealt with. -/
inductive FileError where
  | read (path : Path) (cause : IoError)
  | write (path : Path) (cause : IoError)
  /-- The expansions could not be spliced into the text of the file. -/
  | splice (path : Path) (fault : Splice.Fault)
deriving DecidableEq

namespace FileError

/-- The file in question. -/
def path : FileError → Path
  | read path _ => path
  | write path _ => path
  | splice path _ => path

/-- Text of an error. -/
def message : FileError → Text
  | read path cause =>
      "failed to read ".toList ++ path.shown ++ ": ".toList ++ cause.message
  | write path cause =>
      "failed to write ".toList ++ path.shown ++ ": ".toList ++ cause.message
  | splice path fault =>
      "failed to expand ".toList ++ path.shown ++ ": ".toList ++ fault.message

end FileError

/-- Totals of a run that are logged at its end. -/
structure Totals where
  scanned : Nat
  fixed : Nat
  failed : Nat
  properties : Nat
deriving DecidableEq

/-- Something worth reporting. -/
inductive Event where
  /-- A file has nothing to expand. -/
  | nothingToDo (path : Path)
  /-- A file was expanded. -/
  | expanded (path : Path) (properties : Nat) (mode : WriteMode)
  /-- The walk could not look at something. -/
  | unreadable (path : Path) (cause : IoError)
  /-- A file could not be dealt with. -/
  | failed (error : FileError)
  /-- The run is over. -/
  | complete (totals : Totals)
deriving DecidableEq

/-- Importance of an event. -/
inductive Level where
  | error
  | warn
  | info
  | debug
  | trace
deriving DecidableEq

namespace Level

/-- Levels by importance, the most important first. -/
def rank : Level → Nat
  | error => 1
  | warn => 2
  | info => 3
  | debug => 4
  | trace => 5

/-- Name of a level. -/
def name : Level → String
  | error => "ERROR"
  | warn => "WARN"
  | info => "INFO"
  | debug => "DEBUG"
  | trace => "TRACE"

end Level

/-- The least important level that a log shows, or nothing for a log that stays empty. -/
abbrev Verbosity := Option Level

namespace Verbosity

/-- Verbosity unless told otherwise. -/
def standard : Verbosity := some .info

/-- Verbosity given by its name, in upper or lower case. -/
def ofName? (name : Text) : Option Verbosity :=
  let known : List (String × Verbosity) :=
    [("off", none), ("error", some .error), ("warn", some .warn), ("info", some .info),
      ("debug", some .debug), ("trace", some .trace)]
  (known.find? fun (word, _) => word.toList = name.map Char.toLower).map Prod.snd

/-- Whether a level is shown. -/
def shows (verbosity : Verbosity) (level : Level) : Bool :=
  match verbosity with
  | some least => level.rank ≤ least.rank
  | none => false

end Verbosity

/-- Value of a field of an event. -/
inductive FieldValue where
  | text (t : Text)
  | number (n : Nat)
deriving DecidableEq

/-- Value of a field in words. -/
def FieldValue.shown : FieldValue → Text
  | text t => t
  | number n => Text.ofNat n

namespace Event

/-- Level of an event. -/
def level : Event → Level
  | nothingToDo _ => .debug
  | expanded _ _ _ => .debug
  | unreadable _ _ => .warn
  | failed _ => .error
  | complete _ => .info

/-- Message of an event. -/
def message : Event → String
  | nothingToDo _ => "no auto-properties"
  | expanded _ _ _ => "rewrote file"
  | unreadable _ _ => "skipping unreadable entry"
  | failed _ => "Error processing file"
  | complete _ => "run complete"

/-- Fields of an event, in the order in which they are shown. -/
def fields : Event → List (String × FieldValue)
  | nothingToDo path => [("path", .text path.shown)]
  | expanded path properties mode =>
      [("path", .text path.shown), ("properties", .number properties), ("mode", .text mode.name)]
  | unreadable path cause =>
      [("error", .text ("IO error for operation on ".toList ++ path.shown ++ ": ".toList ++
        cause.message))]
  | failed error => [("path", .text error.path.shown), ("error", .text error.message)]
  | complete totals =>
      [("scanned", .number totals.scanned), ("fixed", .number totals.fixed),
        ("failed", .number totals.failed), ("properties", .number totals.properties)]

/-- An event as a line of a log. -/
def line (e : Event) : Text :=
  e.level.name.toList ++ " ".toList ++ e.message.toList ++
    (e.fields.flatMap fun (key, value) =>
      " ".toList ++ key.toList ++ "=".toList ++ value.shown) ++ "\n".toList

end Event

/-- Lines of a log that shows events as far as the verbosity goes. -/
def logText (verbosity : Verbosity) (events : List Event) : Text :=
  (events.filter fun e => verbosity.shows e.level).flatMap Event.line

end BackingField
