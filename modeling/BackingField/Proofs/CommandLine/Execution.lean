import BackingField.CommandLine.Execution
import BackingField.Proofs.CommandLine.Arguments
import BackingField.Proofs.Run.Account
import BackingField.Proofs.Text.LineStarts

/-!
# A call writes only when it is asked to

Only arguments for a run without `--dry-run` lead to a change in the tree, and then the tree is the
one that a run leaves behind (`asks_apply_of_fst_call_ne`, `call_of_asks_run`).  All other arguments
are answered without a look at the tree (`exists_call_eq_of_not_asks_run`).  The output of a run ends
with the lines that tell how many files were scanned, fixed and not processed
(`exists_output_answerOfRun`).  How much is logged does not matter for any of this
(`call_changes_only_when_asked`).
-/

namespace BackingField

open Text

/-! ### The tree does not depend on what is shown -/

namespace Run

theorem fst_handleAll_eq (mode : WriteMode) (showDiff showDiff' : Bool) (fs : FileSystem)
    (report report' : Report) (found : List Walk.Finding) :
    (handleAll ⟨mode, showDiff⟩ fs report found).1 =
      (handleAll ⟨mode, showDiff'⟩ fs report' found).1 := by
  induction found generalizing fs report report' with
  | nil => rfl
  | cons finding found ih =>
    rw [handleAll_cons, handleAll_cons]
    cases finding with
    | unreadable path cause => exact ih fs _ _
    | candidate path => exact ih _ _ _

/-- What a run leaves behind depends on the mode alone. -/
theorem fst_run_eq (settings : Settings) (mode : WriteMode) (showDiff showDiff' : Bool)
    (fs : FileSystem) :
    (run settings ⟨mode, showDiff⟩ fs).1 = (run settings ⟨mode, showDiff'⟩ fs).1 := by
  rw [run_eq_handleAll, run_eq_handleAll]
  exact fst_handleAll_eq mode showDiff showDiff' fs {} {} (walk settings fs)

theorem fst_run_dryRun (settings : Settings) (showDiff : Bool) (fs : FileSystem) :
    (run settings ⟨.dryRun, showDiff⟩ fs).1 = fs := by
  rw [run_eq_handleAll]
  exact fst_handleAll_dryRun showDiff fs {} (walk settings fs)

end Run

/-! ### Lines of the output -/

namespace Text

/-- A text is empty or ends in a line feed. -/
def IsLines (t : Text) : Prop :=
  t = [] ∨ EndsLine t

variable {s t : Text}

theorem endsLine_iff : EndsLine t ↔ t.getLast? = some '\n' :=
  List.getLast?_eq_some_iff.symm

theorem EndsLine.append_left (s : Text) (ht : EndsLine t) : EndsLine (s ++ t) :=
  (endsLine_append ht.ne_nil).2 ht

theorem EndsLine.append (hs : EndsLine s) (ht : IsLines t) : EndsLine (s ++ t) := by
  rcases ht with rfl | ht
  · simpa using hs
  · exact ht.append_left s

theorem IsLines.append (hs : IsLines s) (ht : IsLines t) : IsLines (s ++ t) := by
  rcases hs with rfl | hs
  · simpa using ht
  · exact .inr (hs.append ht)

end Text

theorem Change.endsLine_output (options : Options) (c : Change) : EndsLine (c.output options) := by
  unfold Change.output Report.notice
  exact EndsLine.append_left _ (EndsLine.append_left _ (endsLine_iff.2 (by decide)))

theorem Change.isLines_flatMap_output (options : Options) (changes : List Change) :
    IsLines (changes.flatMap (Change.output options)) := by
  induction changes with
  | nil => exact .inl rfl
  | cons c changes ih =>
    rw [List.flatMap_cons]
    exact .inr ((c.endsLine_output options).append ih)

/-- What a run prints is made of whole lines. -/
theorem Run.isLines_output (settings : Settings) (options : Options) (fs : FileSystem) :
    IsLines (run settings options fs).2.output := by
  have haccounts := (Accounts.start options fs).reportAll (walk settings fs)
  rw [snd_run, Report.output_finished, haccounts.output]
  exact Change.isLines_flatMap_output options _

namespace CommandLine

/-- The line that tells how many files were scanned and fixed. -/
def doneLine (s : Summary) : Text :=
  "Done: scanned ".toList ++ Text.ofNat s.filesScanned ++ " file(s), fixed ".toList ++
    Text.ofNat s.filesFixed ++ " file(s).\n".toList

/-- What stands behind the number of files that failed. -/
def failureNote : Text :=
  " file(s) could not be processed; see errors above.\n".toList

/-- The line that tells how many files failed, if there are any. -/
def failureLine (s : Summary) : Text :=
  if 0 < s.filesFailed then Text.ofNat s.filesFailed ++ failureNote else []

/-- What is printed between the report of a run and the lines that sum it up. -/
def reminder (options : Options) (s : Summary) : Text :=
  (if options.showDiff then s.diff.summary else []) ++
  if options.mode = .dryRun then
    "\nDry run complete. Run without --dry-run to write changes.\n".toList else []

theorem closing_eq (options : Options) (s : Summary) :
    closing options s = reminder options s ++ (doneLine s ++ failureLine s) := by
  unfold closing reminder doneLine failureLine failureNote
  generalize (if options.showDiff then s.diff.summary else []) = shown
  generalize (if options.mode = .dryRun then _ else _ : Text) = dry
  generalize (if 0 < s.filesFailed then _ else _ : Text) = failed
  simp only [List.append_assoc]

theorem isLines_reminder (options : Options) (s : Summary) : IsLines (reminder options s) := by
  refine IsLines.append ?_ ?_
  · split
    · exact .inr (EndsLine.append_left _ (endsLine_iff.2 (by decide +kernel)))
    · exact .inl rfl
  · split
    · exact .inr (endsLine_iff.2 (by decide +kernel))
    · exact .inl rfl

theorem endsLine_opening (settings : Settings) : EndsLine (opening settings) :=
  EndsLine.append_left _ (endsLine_iff.2 (by decide))

/-- The output of a run ends with the lines that sum it up. -/
theorem exists_output_answerOfRun (settings : Settings) (options : Options) (fs : FileSystem)
    (verbosity : Verbosity) :
    let report := (run settings options fs).2
    ∃ before, EndsLine before ∧ (answerOfRun options verbosity report).output =
      before ++ doneLine report.summary ++ failureLine report.summary := by
  intro report
  have hreport : IsLines report.output := Run.isLines_output settings options fs
  refine ⟨opening Settings.standard ++ report.output ++ reminder options report.summary,
    ((endsLine_opening Settings.standard).append hreport).append
      (isLines_reminder options report.summary), ?_⟩
  rw [answerOfRun, closing_eq]
  simp only [List.append_assoc]

/-- The number of failed files is told exactly if there are any. -/
theorem failureNote_isSuffix_iff (before : Text) (s : Summary) :
    failureNote <:+ before ++ doneLine s ++ failureLine s ↔ 0 < s.filesFailed := by
  constructor
  · intro h
    by_contra hnone
    -- The last words of the output are those of the line before.
    have hdone : " file(s).\n".toList <:+ before ++ doneLine s ++ failureLine s := by
      rw [failureLine, if_neg hnone, List.append_nil]
      exact ⟨_, List.append_assoc _ _ _⟩
    have hsuffix := List.suffix_of_suffix_length_le hdone h (by decide +kernel)
    exact absurd hsuffix (by decide +kernel)
  · intro hsome
    rw [failureLine, if_pos hsome, ← List.append_assoc]
    exact List.suffix_append _ _

/-! ### Calls -/

variable {arguments : List Text}

/-- Arguments for a run are answered by what a run leaves behind and reports. -/
theorem call_of_asks_run {options : Options} (h : Asks arguments (.run options)) (fs : FileSystem)
    (verbosity : Verbosity) : call fs arguments verbosity =
      ((run Settings.standard options fs).1,
        answerOfRun options verbosity (run Settings.standard options fs).2) := by
  simp only [call, request_eq_ok_iff.2 h]

/-- All other arguments are answered in one way in every tree, and leave it alone. -/
theorem exists_call_eq_of_not_asks_run (h : ∀ options, ¬ Asks arguments (.run options)) :
    ∃ answer, ∀ fs verbosity, call fs arguments verbosity = (fs, answer) := by
  cases hrequest : request arguments with
  | error e => exact ⟨refusal e, fun fs verbosity => by simp only [call, hrequest]⟩
  | ok r =>
    cases r with
    | run options => exact absurd (request_eq_ok_iff.1 hrequest) (h options)
    | help atLength =>
      exact ⟨telling (helpText atLength), fun fs verbosity => by simp only [call, hrequest]⟩
    | version => exact ⟨telling versionText, fun fs verbosity => by simp only [call, hrequest]⟩

/-- Arguments are accepted exactly if the call ends with code 0. -/
theorem code_call_eq_zero_iff (fs : FileSystem) (verbosity : Verbosity) :
    (call fs arguments verbosity).2.code = 0 ↔ ∃ r, Asks arguments r := by
  simp only [← request_eq_ok_iff]
  cases hrequest : request arguments with
  | error e => simp [call, hrequest, refusal]
  | ok r =>
    cases r with
    | run options => simp [call, hrequest, answerOfRun]
    | help atLength => simp [call, hrequest, telling]
    | version => simp [call, hrequest, telling]

/-- A call that changes the tree was asked for a run without `--dry-run`, and not for help or for the
version. -/
theorem asks_apply_of_fst_call_ne {fs : FileSystem} {verbosity : Verbosity}
    (h : (call fs arguments verbosity).1 ≠ fs) :
    ∃ showDiff, Asks arguments (.run ⟨.apply, showDiff⟩) := by
  by_cases hrun : ∃ options, Asks arguments (.run options)
  · obtain ⟨⟨mode, showDiff⟩, hasks⟩ := hrun
    rw [call_of_asks_run hasks] at h
    cases mode with
    | apply => exact ⟨showDiff, hasks⟩
    | dryRun => exact absurd (Run.fst_run_dryRun Settings.standard showDiff fs) h
  · obtain ⟨answer, hcall⟩ := exists_call_eq_of_not_asks_run (not_exists.1 hrun)
    rw [hcall] at h
    exact absurd rfl h

/-- The log goes elsewhere, so it shows neither in the tree nor in the output. -/
theorem call_eq_of_verbosity (fs : FileSystem) (arguments : List Text)
    (verbosity verbosity' : Verbosity) :
    (call fs arguments verbosity').1 = (call fs arguments verbosity).1 ∧
      (call fs arguments verbosity').2.output = (call fs arguments verbosity).2.output := by
  by_cases hrun : ∃ options, Asks arguments (.run options)
  · obtain ⟨options, hasks⟩ := hrun
    rw [call_of_asks_run hasks, call_of_asks_run hasks]
    exact ⟨rfl, rfl⟩
  · obtain ⟨answer, hcall⟩ := exists_call_eq_of_not_asks_run (not_exists.1 hrun)
    rw [hcall, hcall]
    exact ⟨rfl, rfl⟩

/-- A call writes only when it is asked to.  If the tree changes, the arguments were accepted, ask for
a run and for neither help nor the version, and `--dry-run` is not among them, and the tree is then
what a run that writes leaves behind.  Arguments that do not ask for a run are answered alike in all
trees, which stay as they are.  Code 0 tells that the arguments were accepted.  For a run it is given
however many files fail, and the output ends with a line that tells how many files were scanned and
fixed, behind which a line tells of failed files exactly if there are any.  What is logged makes no
difference to the tree or to the output. -/
theorem call_changes_only_when_asked (fs : FileSystem) (arguments : List Text)
    (verbosity : Verbosity) :
    ∃ after answer, call fs arguments verbosity = (after, answer) ∧
      (after ≠ fs → (∃ showDiff, Asks arguments (.run ⟨.apply, showDiff⟩)) ∧
        (∀ atLength, ¬ Asks arguments (.help atLength)) ∧ ¬ Asks arguments .version ∧
        "--dry-run".toList ∉ arguments ∧
        after = (run Settings.standard ⟨.apply, false⟩ fs).1) ∧
      ((∀ options, ¬ Asks arguments (.run options)) →
        ∀ fs' verbosity', call fs' arguments verbosity' = (fs', answer)) ∧
      (answer.code = 0 ↔ ∃ r, Asks arguments r) ∧
      (∀ options, Asks arguments (.run options) →
        ∃ report before, run Settings.standard options fs = (after, report) ∧
          answer.code = 0 ∧ EndsLine before ∧
          answer.output = before ++ doneLine report.summary ++ failureLine report.summary ∧
          (failureNote <:+ answer.output ↔ 0 < report.summary.filesFailed)) ∧
      ∀ verbosity', (call fs arguments verbosity').1 = after ∧
        (call fs arguments verbosity').2.output = answer.output := by
  refine ⟨(call fs arguments verbosity).1, (call fs arguments verbosity).2, rfl, fun hchanged => ?_,
    fun hnone fs' verbosity' => ?_, code_call_eq_zero_iff fs verbosity, fun options hasks => ?_,
    call_eq_of_verbosity fs arguments verbosity⟩
  · obtain ⟨showDiff, hasks⟩ := asks_apply_of_fst_call_ne hchanged
    refine ⟨⟨showDiff, hasks⟩, fun atLength hhelp => ?_, fun hversion => ?_, fun hdry => ?_, ?_⟩
    · exact absurd (hasks.unique hhelp) (by simp)
    · exact absurd (hasks.unique hversion) (by simp)
    · exact absurd (hasks.mem_of_apply hdry) (by decide)
    · rw [call_of_asks_run hasks]
      exact Run.fst_run_eq Settings.standard .apply showDiff false fs
  · obtain ⟨answer, hcall⟩ := exists_call_eq_of_not_asks_run hnone
    rw [hcall, hcall]
  · obtain ⟨before, hbefore, houtput⟩ :=
      exists_output_answerOfRun Settings.standard options fs verbosity
    rw [call_of_asks_run hasks]
    refine ⟨(run Settings.standard options fs).2, before, rfl, rfl, hbefore, houtput, ?_⟩
    rw [houtput]
    exact failureNote_isSuffix_iff before _

end CommandLine
end BackingField
