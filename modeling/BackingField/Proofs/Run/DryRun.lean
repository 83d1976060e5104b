import BackingField.Proofs.Run.Report

/-!
# A dry run predicts the run that writes

Both runs go through the same candidates and plan the same for each of them.  They part only where a
write fails: there the dry run counts a fixed file and the other one a failed file
(`Predicts.withResult_process`).  Without a failed write the two reports differ in one word of each
notice (`dryRun_predicts_apply`).
-/

namespace BackingField

open FileSystem

/-- Whether processing ended because a file could not be written. -/
def Processing.Result.isWriteFailure (result : Processing.Result) : Bool :=
  match result.outcome with
  | .error (.write _ _) => true
  | _ => false

/-- Whether an event tells that a file could not be written. -/
def Event.isWriteFailure : Event → Bool
  | .failed (.write _ _) => true
  | _ => false

/-- The output for changed files: what is shown of each, and a line with the given word and its
path. -/
def Report.notices (word : String) (changes : List (Text × Path)) : Text :=
  changes.flatMap fun (shown, path) => shown ++ word.toList ++ path.shown ++ "\n".toList

theorem Report.notices_concat (word : String) (changes : List (Text × Path)) (shown : Text)
    (path : Path) : notices word (changes ++ [(shown, path)]) =
      notices word changes ++ (shown ++ word.toList ++ path.shown ++ "\n".toList) := by
  rw [notices, List.flatMap_append, List.flatMap_singleton]
  rfl

theorem Report.notice_apply (path : Path) :
    notice .apply path = "Fixed: ".toList ++ path.shown ++ "\n".toList :=
  rfl

theorem Report.notice_dryRun (path : Path) :
    notice .dryRun path = "Would fix: ".toList ++ path.shown ++ "\n".toList :=
  rfl

/-- The diff of a file that changed, if it is to be shown. -/
def Report.shownDiff (showDiff : Bool) (path : Path) (before after : Text) : Text :=
  if showDiff then (Diff.printed path.shown before after).text else []

/-- A changed file adds its diff, if it is to be shown, and a notice to the output. -/
theorem Report.output_withResult_replaced (report : Report) (mode : WriteMode) (showDiff : Bool)
    (path : Path) (text : Text) (e : Expansion) :
    (report.withResult ⟨mode, showDiff⟩ path
        (Processing.replaced path mode text e (.ok ()))).output =
      report.output ++ shownDiff showDiff path text e.text ++ notice mode path := by
  cases showDiff with
  | false => rfl
  | true => rfl

/-- What the report of a dry run says about the report of a run that writes, when the given number
of writes failed. -/
structure Predicts (failures : Nat) (dry apply : Report) : Prop where
  scanned : dry.summary.filesScanned = apply.summary.filesScanned
  fixed : dry.summary.filesFixed = apply.summary.filesFixed + failures
  failed : apply.summary.filesFailed = dry.summary.filesFailed + failures
  summary : failures = 0 → dry.summary = apply.summary
  output : failures = 0 → ∃ changes, apply.output = Report.notices "Fixed: " changes ∧
    dry.output = Report.notices "Would fix: " changes

namespace Predicts

variable {failures : Nat} {dry apply : Report}

theorem start : Predicts 0 {} {} :=
  ⟨rfl, rfl, rfl, fun _ => rfl, fun _ => ⟨[], rfl, rfl⟩⟩

/-! ### One file -/

/-- The same failure in both runs. -/
theorem withResult_failed (h : Predicts failures dry apply) (showDiff : Bool) (path : Path)
    (error : FileError) :
    Predicts failures (dry.withResult ⟨.dryRun, showDiff⟩ path (Processing.failed error))
      (apply.withResult ⟨.apply, showDiff⟩ path (Processing.failed error)) where
  scanned := by simp only [Report.withResult, Processing.failed, h.scanned]
  fixed := h.fixed
  failed := by
    simp only [Report.withResult, Processing.failed, h.failed]
    omega
  summary hnone := by simp only [Report.withResult, Processing.failed, h.summary hnone]
  output := h.output

/-- Nothing to expand in either run. -/
theorem withResult_left (h : Predicts failures dry apply) (showDiff : Bool) (path : Path)
    (text : Text) :
    Predicts failures (dry.withResult ⟨.dryRun, showDiff⟩ path (Processing.left path text))
      (apply.withResult ⟨.apply, showDiff⟩ path (Processing.left path text)) where
  scanned := by simp only [Report.withResult, Processing.left, h.scanned]
  fixed := h.fixed
  failed := h.failed
  summary hnone := by simp only [Report.withResult, Processing.left, h.summary hnone]
  output := h.output

/-- The same change in both runs. -/
theorem withResult_replaced (h : Predicts failures dry apply) (showDiff : Bool) (path : Path)
    (text : Text) (e : Expansion) :
    Predicts failures
      (dry.withResult ⟨.dryRun, showDiff⟩ path (Processing.replaced path .dryRun text e (.ok ())))
      (apply.withResult ⟨.apply, showDiff⟩ path
        (Processing.replaced path .apply text e (.ok ()))) where
  scanned := by
    simp only [Report.withResult, Processing.replaced, Report.withChange, h.scanned]
  fixed := by
    simp only [Report.withResult, Processing.replaced, Report.withChange, h.fixed]
    omega
  failed := h.failed
  summary hnone := by
    simp only [Report.withResult, Processing.replaced, Report.withChange, h.summary hnone]
  output hnone := by
    obtain ⟨changes, happly, hdry⟩ := h.output hnone
    refine ⟨changes ++ [(Report.shownDiff showDiff path text e.text, path)], ?_, ?_⟩
    · rw [Report.output_withResult_replaced, Report.notices_concat, happly, Report.notice_apply]
      simp only [List.append_assoc]
    · rw [Report.output_withResult_replaced, Report.notices_concat, hdry, Report.notice_dryRun]
      simp only [List.append_assoc]

/-- A write that fails is one more fixed file in the dry run, and one more failed file in the other. -/
theorem withResult_writeFailure (h : Predicts failures dry apply) (showDiff : Bool) (path : Path)
    (text : Text) (e : Expansion) (cause : IoError) :
    Predicts (failures + 1)
      (dry.withResult ⟨.dryRun, showDiff⟩ path (Processing.replaced path .dryRun text e (.ok ())))
      (apply.withResult ⟨.apply, showDiff⟩ path
        (Processing.replaced path .apply text e (.error cause))) where
  scanned := by
    simp only [Report.withResult, Processing.replaced, Processing.failed, Report.withChange,
      h.scanned]
  fixed := by
    simp only [Report.withResult, Processing.replaced, Processing.failed, Report.withChange, h.fixed]
    omega
  failed := by
    simp only [Report.withResult, Processing.replaced, Processing.failed, Report.withChange,
      h.failed]
    omega
  summary hnone := by omega
  output hnone := by omega

/-- Processing a file keeps up the prediction, where a failed write counts as one. -/
theorem withResult_process (h : Predicts failures dry apply) (showDiff : Bool) (fs : FileSystem)
    (path : Path) :
    Predicts (failures + if (process fs path .apply).2.isWriteFailure then 1 else 0)
      (dry.withResult ⟨.dryRun, showDiff⟩ path (process fs path .dryRun).2)
      (apply.withResult ⟨.apply, showDiff⟩ path (process fs path .apply).2) := by
  rcases process_cases fs path with ⟨error, herror, hfailed⟩ | ⟨text, hleft⟩ |
    ⟨location, bytes, text, e, -, -, hdry, happly⟩
  · have hcount : (Processing.failed error).isWriteFailure = false := by
      cases error with
      | write path' cause => exact absurd rfl (herror path' cause)
      | read path' cause => rfl
      | splice path' fault => rfl
    rw [hfailed, hfailed]
    simpa [hcount] using h.withResult_failed showDiff path error
  · rw [hleft, hleft]
    exact h.withResult_left showDiff path text
  · rw [hdry, happly]
    cases (fs.overwrite path (Utf8.encode e.text)).2 with
    | ok written => exact h.withResult_replaced showDiff path text e
    | error cause => exact h.withResult_writeFailure showDiff path text e cause

/-! ### All files -/

theorem reportAll (h : Predicts failures dry apply) (showDiff : Bool) (fs : FileSystem)
    (found : List Walk.Finding) :
    Predicts
      (failures +
        (Walk.candidates found).countP fun path => (process fs path .apply).2.isWriteFailure)
      (Run.reportAll ⟨.dryRun, showDiff⟩ fs dry found)
      (Run.reportAll ⟨.apply, showDiff⟩ fs apply found) := by
  induction found generalizing failures dry apply with
  | nil => exact h
  | cons finding found ih =>
    rw [Run.reportAll_cons, Run.reportAll_cons]
    cases finding with
    | unreadable path cause => exact ih ⟨h.scanned, h.fixed, h.failed, h.summary, h.output⟩
    | candidate path =>
      have hlater := ih (h.withResult_process showDiff fs path)
      have hcount : (Walk.candidates (.candidate path :: found)).countP
          (fun path => (process fs path .apply).2.isWriteFailure) =
          (if (process fs path .apply).2.isWriteFailure then 1 else 0) +
            (Walk.candidates found).countP
              fun path => (process fs path .apply).2.isWriteFailure := by
        rw [Nat.add_comm]
        exact List.countP_cons
      rw [hcount, ← Nat.add_assoc]
      exact hlater

end Predicts

namespace Run

/-- Each failed write is reported once. -/
theorem countP_eventsOf (fs : FileSystem) (path : Path) :
    (eventsOf fs .apply (.candidate path)).countP Event.isWriteFailure =
      if (process fs path .apply).2.isWriteFailure then 1 else 0 := by
  rw [eventsOf]
  rcases process_cases fs path with ⟨error, herror, hfailed⟩ | ⟨text, hleft⟩ |
    ⟨location, bytes, text, e, -, -, -, happly⟩
  · rw [hfailed]
    cases error with
    | write path' cause => exact absurd rfl (herror path' cause)
    | read path' cause => rfl
    | splice path' fault => rfl
  · rw [hleft]
    rfl
  · rw [happly]
    cases (fs.overwrite path (Utf8.encode e.text)).2 with
    | ok written => rfl
    | error cause => rfl

theorem countP_events (fs : FileSystem) (found : List Walk.Finding) :
    (found.flatMap (eventsOf fs .apply)).countP Event.isWriteFailure =
      (Walk.candidates found).countP fun path => (process fs path .apply).2.isWriteFailure := by
  induction found with
  | nil => rfl
  | cons finding found ih =>
    rw [List.flatMap_cons, List.countP_append, ih]
    cases finding with
    | unreadable path cause => exact Nat.zero_add _
    | candidate path =>
      rw [countP_eventsOf, Nat.add_comm]
      exact List.countP_cons.symm

/-- A dry run leaves everything as it is. -/
theorem fst_handleAll_dryRun (showDiff : Bool) (fs : FileSystem) (report : Report)
    (found : List Walk.Finding) :
    (handleAll ⟨.dryRun, showDiff⟩ fs report found).1 = fs := by
  induction found generalizing report with
  | nil => rfl
  | cons finding found ih =>
    rw [handleAll_cons]
    cases finding with
    | unreadable path cause => exact ih _
    | candidate path =>
      have hsame : (process fs path .dryRun).1 = fs := by
        rcases process_cases fs path with ⟨error, -, hfailed⟩ | ⟨text, hleft⟩ |
          ⟨location, bytes, text, e, -, -, hdry, -⟩
        · rw [hfailed]
        · rw [hleft]
        · rw [hdry]
      simp only [handle, hsame]
      exact ih _

end Run

/-- A dry run leaves everything as it is and predicts the run that writes.  Both scan the same number
of files.  Each file whose write fails is counted as fixed by the dry run and as failed by the other.
When no write fails, the totals are the same, and the outputs differ only in the word that each
notice begins with. -/
theorem dryRun_predicts_apply (settings : Settings) (showDiff : Bool) (fs : FileSystem) :
    ∃ dry after apply writeFailures, run settings ⟨.dryRun, showDiff⟩ fs = (fs, dry) ∧
      run settings ⟨.apply, showDiff⟩ fs = (after, apply) ∧
      writeFailures = ((Walk.candidates (walk settings fs)).countP
        fun path => (process fs path .apply).2.isWriteFailure) ∧
      writeFailures = apply.events.countP Event.isWriteFailure ∧
      dry.summary.filesScanned = apply.summary.filesScanned ∧
      dry.summary.filesFixed = apply.summary.filesFixed + writeFailures ∧
      apply.summary.filesFailed = dry.summary.filesFailed + writeFailures ∧
      (writeFailures = 0 → dry.summary = apply.summary ∧
        ∃ changes, apply.output = Report.notices "Fixed: " changes ∧
          dry.output = Report.notices "Would fix: " changes) := by
  have hpredicts := Predicts.start.reportAll showDiff fs (walk settings fs)
  rw [Nat.zero_add] at hpredicts
  refine ⟨(run settings ⟨.dryRun, showDiff⟩ fs).2, (run settings ⟨.apply, showDiff⟩ fs).1,
    (run settings ⟨.apply, showDiff⟩ fs).2, _, Prod.ext ?_ rfl, rfl, rfl, ?_, ?_⟩
  · rw [Run.run_eq_handleAll]
    exact Run.fst_handleAll_dryRun showDiff fs {} (walk settings fs)
  · obtain ⟨-, -, hevents⟩ := Run.run_spec settings ⟨.apply, showDiff⟩ fs
    rw [hevents, List.countP_append, Run.countP_events]
    rfl
  · simp only [Run.snd_run, Report.summary_finished, Report.output_finished]
    exact ⟨hpredicts.scanned, hpredicts.fixed, hpredicts.failed,
      fun hnone => ⟨hpredicts.summary hnone, hpredicts.output hnone⟩⟩

end BackingField
