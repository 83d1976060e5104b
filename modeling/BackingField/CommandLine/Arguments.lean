import BackingField.CommandLine.Similarity
import BackingField.Run

/-!
# Arguments of the command line

Arguments are read from left to right, and the first one that asks for help or for the version, or
that is wrong, decides.  There are four flags and nothing else: two of them may be given once each,
and no flag takes a value.
-/

namespace BackingField
namespace CommandLine

/-- Flags by their long names. -/
inductive Flag where
  | dryRun
  | diff
  | help
  | version
deriving DecidableEq

namespace Flag

/-- Long name of a flag. -/
def name : Flag → Text
  | dryRun => "dry-run".toList
  | diff => "diff".toList
  | help => "help".toList
  | version => "version".toList

/-- A flag as it is given. -/
def shown (f : Flag) : Text :=
  "--".toList ++ f.name

/-- All flags, in the order in which they are listed. -/
def all : List Flag :=
  [dryRun, diff, help, version]

/-- The flag of a long name. -/
def ofName? (name : Text) : Option Flag :=
  all.find? fun f => f.name = name

end Flag

/-- What the arguments ask for. -/
inductive Request where
  | run (options : Options)
  /-- Help, in short or at length. -/
  | help (atLength : Bool)
  | version
deriving DecidableEq

/-- What is wrong with an argument. -/
inductive ArgumentError where
  /-- There is no such argument, though there may be a flag like it. -/
  | unexpected (argument : Text) (similar : Option Flag)
  /-- A flag is given a value. -/
  | unneededValue (flag : Flag) (value : Text)
  /-- A flag is given twice. -/
  | repeated (flag : Flag)
deriving DecidableEq

/-- Shape of an argument. -/
inductive Shape where
  /-- Two dashes and nothing else, after which there are no flags. -/
  | endOfFlags
  /-- Two dashes and a name, with a value behind an equals sign if there is one. -/
  | long (name : Text) (value : Option Text)
  /-- One dash and letters. -/
  | short (first : Char) (others : Text)
  /-- Anything else. -/
  | positional
deriving DecidableEq

/-- Shape of an argument. -/
def shapeOf : Text → Shape
  | ['-', '-'] => .endOfFlags
  | '-' :: '-' :: t =>
      match t.dropWhile (· ≠ '=') with
      | _ :: value => .long (t.takeWhile (· ≠ '=')) (some value)
      | [] => .long t none
  | '-' :: c :: t => .short c t
  | _ => .positional

/-- Give a flag that may be given once. -/
def give (flag : Flag) (isGiven : Bool) : Except ArgumentError Bool :=
  if isGiven then .error (.repeated flag) else .ok true

/-- Read arguments, with the flags given before them. -/
def readArguments (dryRun diff : Bool) : List Text → Except ArgumentError Request
  | [] => .ok (.run ⟨if dryRun then .dryRun else .apply, diff⟩)
  | argument :: rest =>
      match shapeOf argument with
      | .endOfFlags =>
          match rest with
          | [] => readArguments dryRun diff []
          | extra :: _ => .error (.unexpected extra none)
      | .positional => .error (.unexpected argument none)
      | .short 'h' _ => .ok (.help false)
      | .short 'V' _ => .ok .version
      | .short c _ => .error (.unexpected ['-', c] none)
      | .long name value =>
          match Flag.ofName? name, value with
          | none, _ =>
              .error (.unexpected ("--".toList ++ name) (Similarity.closest? Flag.name name Flag.all))
          | some flag, some value => .error (.unneededValue flag value)
          | some .help, none => .ok (.help true)
          | some .version, none => .ok .version
          | some .dryRun, none => do readArguments (← give .dryRun dryRun) diff rest
          | some .diff, none => do readArguments dryRun (← give .diff diff) rest

/-- What the arguments of a call ask for. -/
def request (arguments : List Text) : Except ArgumentError Request :=
  readArguments false false arguments

namespace ArgumentError

/-- What is wrong. -/
def complaint : ArgumentError → Text
  | unexpected argument _ => "unexpected argument '".toList ++ argument ++ "' found".toList
  | unneededValue flag value =>
      "unexpected value '".toList ++ value ++ "' for '".toList ++ flag.shown ++
        "' found; no more were expected".toList
  | repeated flag =>
      "the argument '".toList ++ flag.shown ++ "' cannot be used multiple times".toList

/-- The flag that is probably meant. -/
def suggestion? : ArgumentError → Option Flag
  | unexpected _ similar => similar
  | _ => none

/-- How the program is to be called. -/
def usage : ArgumentError → Text
  | unexpected _ (some flag) => flag.shown
  | unneededValue flag _ => flag.shown
  | _ => "[OPTIONS]".toList

/-- Text of an error. -/
def message (e : ArgumentError) : Text :=
  "error: ".toList ++ e.complaint ++ "\n\n".toList ++
    (match e.suggestion? with
      | some flag =>
          "  tip: a similar argument exists: '".toList ++ flag.shown ++ "'\n\n".toList
      | none => []) ++
    "Usage: propfix ".toList ++ e.usage ++ "\n\nFor more information, try '--help'.\n".toList

end ArgumentError
end CommandLine
end BackingField
