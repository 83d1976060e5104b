import BackingField.CommandLine.Execution

/-!
# The program

The outer layer: it asks the machine what the walk and the processing of files want to know, and
prints what they have to say.  All decisions are made elsewhere.
-/

namespace BackingField
namespace Program

/-- Number under which the machine reported an error, zero if there is none. -/
def codeOf : IO.Error → Nat
  | .alreadyExists _ code _ | .otherError code _ | .resourceBusy code _ | .resourceVanished code _
  | .unsupportedOperation code _ | .hardwareFault code _ | .unsatisfiedConstraints code _
  | .illegalOperation code _ | .protocolError code _ | .timeExpired code _
  | .interrupted _ code _ | .noFileOrDirectory _ code _ | .invalidArgument _ code _
  | .permissionDenied _ code _ | .resourceExhausted _ code _ | .inappropriateType _ code _
  | .noSuchThing _ code _ => code.toNat
  | .unexpectedEof | .userError _ => 0

/-- Result of an access to the machine. -/
def attempt {α : Type} (access : IO α) : IO (Except IoError α) := do
  try
    return .ok (← access)
  catch e =>
    return .error (IoError.ofCode (codeOf e))

/-- A path in the form that the machine takes. -/
def native (path : Path) : String :=
  String.ofList path.shown

/-- Kind of a node.  What is neither a file nor a directory is treated as a link: it is not looked
at. -/
def kindOf (metadata : IO.FS.Metadata) : Kind :=
  match metadata.type with
  | .file => .file
  | .dir => .directory
  | _ => .link

/-- Kind of what a path names. -/
def kind (path : Path) : IO (Except IoError Kind) :=
  attempt do return kindOf (← ((← IO.currentDir) / native path).symlinkMetadata)

/-- Kind of what a path leads to through all links. -/
def kindBehindLinks (path : Path) : IO (Except IoError Kind) :=
  attempt do return kindOf (← ((← IO.currentDir) / native path).metadata)

/-- Name and kind of an entry.  An entry that cannot be looked at is taken for a file, and reading it
tells what is wrong. -/
def entry (item : IO.FS.DirEntry) : IO (Name × Kind) := do
  let kind ← attempt do return kindOf (← item.path.symlinkMetadata)
  return (Path.ofText item.fileName.toList, kind.toOption.getD .file)

/-- Names and kinds of the entries of a directory. -/
def entries (path : Path) : IO (Except IoError (List (Name × Kind))) :=
  attempt do return (← (← ((← IO.currentDir) / native path).readDir).mapM entry).toList

/-- Visit of an item of the walk. -/
def visit (settings : Settings) : Walk.Item → IO Walk.Visit
  | .root path => return Walk.visitRoot settings path (← kind path)
  | .linkedRoot path => return Walk.visitLinkedRoot path (← kindBehindLinks path)
  | .directory path => return Walk.visitDirectory settings path (← entries path)
  | .file path => return { finding := some (.candidate path) }

/-- Process a file. -/
def process (path : Path) (mode : WriteMode) : IO Processing.Result := do
  let content ← attempt (IO.FS.readBinFile (native path))
  match Processing.plan path (content.map ByteArray.toList) with
  | .fail error => return Processing.failed error
  | .leave text => return Processing.left path text
  | .replace text expansion =>
      let bytes := (Utf8.encode expansion.text).toByteArray
      let written ←
        match mode with
        | .dryRun => pure (.ok ())
        | .apply => attempt (IO.FS.writeBinFile (native path) bytes)
      return Processing.replaced path mode text expansion written

/-- Deal with a finding of the walk. -/
def handle (options : Options) (report : Report) : Walk.Finding → IO Report
  | .unreadable path cause => return report.withEvent (.unreadable path cause)
  | .candidate path => return report.withResult options path (← process path options.mode)

/-- Print what a report holds, and keep its numbers. -/
def publish (verbosity : Verbosity) (report : Report) : IO Report := do
  IO.print (String.ofList report.output)
  IO.eprint (String.ofList (logText verbosity report.events))
  return { report with output := [], events := [] }

/-- Go on with the walk, and deal with what it finds. -/
partial def proceed (settings : Settings) (options : Options) (verbosity : Verbosity)
    (report : Report) : List Walk.Item → IO Report
  | [] => return report
  | item :: items => do
      let v ← visit settings item
      let report ←
        match v.finding with
        | none => pure report
        | some finding => handle options report finding
      proceed settings options verbosity (← publish verbosity report) (v.items ++ items)

/-- Run over all files. -/
def run (settings : Settings) (options : Options) (verbosity : Verbosity) : IO Unit := do
  IO.print (String.ofList (CommandLine.opening settings))
  let report ← proceed settings options verbosity {} (Walk.start settings)
  let report ← publish verbosity report.finished
  IO.print (String.ofList (CommandLine.closing options report.summary))

/-- Give an answer that needs no run. -/
def tell (answer : CommandLine.Answer) : IO UInt32 := do
  IO.print (String.ofList answer.output)
  IO.eprint (String.ofList answer.errors)
  return answer.code.toUInt32

/-- Verbosity that the environment asks for. -/
def verbosity : IO Verbosity := do
  match ← IO.getEnv "RUST_LOG" with
  | some name => return (Verbosity.ofName? name.toList).getD Verbosity.standard
  | none => return Verbosity.standard

/-- Do what the arguments ask for. -/
def start (arguments : List Text) : IO UInt32 := do
  match CommandLine.request arguments with
  | .error e => tell (CommandLine.refusal e)
  | .ok (.help atLength) => tell (CommandLine.telling (CommandLine.helpText atLength))
  | .ok .version => tell (CommandLine.telling CommandLine.versionText)
  | .ok (.run options) => do
      run Settings.standard options (← verbosity)
      return 0

end Program
end BackingField

/-- Entry of the program. -/
def main (arguments : List String) : IO UInt32 :=
  BackingField.Program.start (arguments.map String.toList)
