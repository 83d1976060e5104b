import BackingField.Diff.Unified
import BackingField.Processing
import BackingField.Walk

/-!
# A run over all files

Every candidate of the walk is processed as soon as it is found, before the walk goes on.  A file
that fails is reported and counted, and does not stop the run.
-/

namespace BackingField

/-- What a run does with the files it finds. -/
structure Options where
  mode : WriteMode := .apply
  /-- Show the diff of every file that changes. -/
  showDiff : Bool := false
deriving DecidableEq

/-- Totals of a run. -/
structure Summary where
  filesScanned : Nat := 0
  filesFixed : Nat := 0
  filesFailed : Nat := 0
  propertiesExpanded : Nat := 0
  diff : Diff.LineStats := {}
deriving DecidableEq

/-- The totals that are logged. -/
def Summary.totals (s : Summary) : Totals :=
  ⟨s.filesScanned, s.filesFixed, s.filesFailed, s.propertiesExpanded⟩

/-- What a run has printed, reported and counted so far. -/
structure Report where
  output : Text := []
  events : List Event := []
  summary : Summary := {}
deriving DecidableEq

namespace Report

/-- Add an event. -/
def withEvent (r : Report) (e : Event) : Report :=
  { r with events := r.events ++ [e] }

/-- The line that tells of a changed file. -/
def notice (mode : WriteMode) (path : Path) : Text :=
  (match mode with
    | .apply => "Fixed: ".toList
    | .dryRun => "Would fix: ".toList) ++ path.shown ++ "\n".toList

/-- Report of a changed file: its diff if it is to be shown, and a notice. -/
def withChange (r : Report) (options : Options) (path : Path) (properties : Nat)
    (before after : Text) : Report :=
  let shown : Diff.Report :=
    if options.showDiff then Diff.printed path.shown before after else ⟨[], {}⟩
  { r with
    output := r.output ++ shown.text ++ notice options.mode path
    summary :=
      { r.summary with
        filesFixed := r.summary.filesFixed + 1
        propertiesExpanded := r.summary.propertiesExpanded + properties
        diff := r.summary.diff.add shown.stats } }

/-- Report of a processed file. -/
def withResult (r : Report) (options : Options) (path : Path) (result : Processing.Result) :
    Report :=
  let r :=
    { r with
      events := r.events ++ result.events
      summary := { r.summary with filesScanned := r.summary.filesScanned + 1 } }
  match result.outcome with
  | .error error =>
      { r with
        events := r.events ++ [.failed error]
        summary := { r.summary with filesFailed := r.summary.filesFailed + 1 } }
  | .ok outcome =>
      match outcome.after with
      | none => r
      | some after => r.withChange options path outcome.properties outcome.before after

/-- Report of a run that is over. -/
def finished (r : Report) : Report :=
  r.withEvent (.complete r.summary.totals)

end Report

namespace Run

/-- Deal with a finding of the walk. -/
def handle (options : Options) (fs : FileSystem) (report : Report) :
    Walk.Finding → FileSystem × Report
  | .unreadable path cause => (fs, report.withEvent (.unreadable path cause))
  | .candidate path =>
      let (fs, result) := process fs path options.mode
      (fs, report.withResult options path result)

/-- Go on with at most the given number of visits, and deal with what each of them finds. -/
def proceed (settings : Settings) (options : Options) :
    (visits : Nat) → List Walk.Item → FileSystem → Report → FileSystem × Report
  | 0, _, fs, report => (fs, report)
  | _, [], fs, report => (fs, report)
  | visits + 1, item :: items, fs, report =>
      let v := Walk.visit settings fs item
      match v.finding with
      | none => proceed settings options visits (v.items ++ items) fs report
      | some finding =>
          let (fs, report) := handle options fs report finding
          proceed settings options visits (v.items ++ items) fs report

end Run

/-- Walk the tree and process every candidate. -/
def run (settings : Settings) (options : Options) (fs : FileSystem) : FileSystem × Report :=
  let (fs, report) :=
    Run.proceed settings options (Walk.visitBound fs) (Walk.start settings) fs {}
  (fs, report.finished)

end BackingField
