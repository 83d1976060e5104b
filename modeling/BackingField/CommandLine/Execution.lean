import BackingField.CommandLine.Arguments

/-!
# A call of the program

Wrong arguments end a call with code 2 and touch no file.  Every other call ends with code 0, also
when files fail.
-/

namespace BackingField
namespace CommandLine

/-- Name and version of the program. -/
def versionText : Text :=
  "propfix 0.1.0\n".toList

/-- Help in short. -/
def shortHelp : Text :=
  ("Rewrites field-backed auto-properties into explicit backing-field form\n" ++
  "\n" ++
  "Usage: propfix [OPTIONS]\n" ++
  "\n" ++
  "Options:\n" ++
  "      --dry-run  Report which files would change without writing anything\n" ++
  "      --diff     Print a unified diff for every file that changes\n" ++
  "  -h, --help     Print help (see more with '--help')\n" ++
  "  -V, --version  Print version\n").toList

/-- Help at length. -/
def longHelp : Text :=
  ("Rewrites field-backed auto-properties into explicit backing-field form.\n" ++
  "\n" ++
  "The root directory, excluded directory names and file extension are fixed; " ++
  "run it from the top of the solution.\n" ++
  "\n" ++
  "Usage: propfix [OPTIONS]\n" ++
  "\n" ++
  "Options:\n" ++
  "      --dry-run\n" ++
  "          Report which files would change without writing anything\n" ++
  "\n" ++
  "      --diff\n" ++
  "          Print a unified diff for every file that changes\n" ++
  "\n" ++
  "  -h, --help\n" ++
  "          Print help (see a summary with '-h')\n" ++
  "\n" ++
  "  -V, --version\n" ++
  "          Print version\n").toList

/-- Help, in short or at length. -/
def helpText (atLength : Bool) : Text :=
  if atLength then longHelp else shortHelp

/-- What is printed before a run. -/
def opening (settings : Settings) : Text :=
  "Rewriting field-backed auto-properties under ".toList ++ settings.root.shown ++ " ...\n".toList

/-- What is printed after a run. -/
def closing (options : Options) (summary : Summary) : Text :=
  (if options.showDiff then summary.diff.summary else []) ++
  (if options.mode = .dryRun then
    "\nDry run complete. Run without --dry-run to write changes.\n".toList else []) ++
  "Done: scanned ".toList ++ Text.ofNat summary.filesScanned ++ " file(s), fixed ".toList ++
    Text.ofNat summary.filesFixed ++ " file(s).\n".toList ++
  (if 0 < summary.filesFailed then
    Text.ofNat summary.filesFailed ++
      " file(s) could not be processed; see errors above.\n".toList else [])

/-- What a call leaves behind besides files. -/
structure Answer where
  code : Nat
  output : Text
  errors : Text
deriving DecidableEq

/-- Answer to wrong arguments. -/
def refusal (e : ArgumentError) : Answer :=
  ⟨2, [], e.message⟩

/-- Answer that only prints something. -/
def telling (t : Text) : Answer :=
  ⟨0, t, []⟩

/-- Answer after a run. -/
def answerOfRun (options : Options) (verbosity : Verbosity) (report : Report) : Answer :=
  ⟨0, opening Settings.standard ++ report.output ++ closing options report.summary,
    logText verbosity report.events⟩

/-- Call the program. -/
def call (fs : FileSystem) (arguments : List Text) (verbosity : Verbosity) :
    FileSystem × Answer :=
  match request arguments with
  | .error e => (fs, refusal e)
  | .ok (.help atLength) => (fs, telling (helpText atLength))
  | .ok .version => (fs, telling versionText)
  | .ok (.run options) =>
      let (fs, report) := run Settings.standard options fs
      (fs, answerOfRun options verbosity report)

end CommandLine
end BackingField
