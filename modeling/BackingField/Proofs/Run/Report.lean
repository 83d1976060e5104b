import BackingField.Proofs.Run.Effect

/-!
# The report of a run

A run reports what processing each candidate comes to in the tree that the run starts with
(`Run.snd_run`), although it writes on the way.  So two reports can be compared finding by finding,
and the number of files that are scanned is the number of candidates (`Run.filesScanned_run`).
-/

namespace BackingField

open FileSystem

variable {fs fs' : FileSystem}

/-! ### What processing a file comes to -/

/-- Whether a path leads to a file that can be read, is UTF-8 and has nothing to expand. -/
def FileSystem.isPlain (fs : FileSystem) (path : Path) : Bool :=
  match fs.read path with
  | .error _ => false
  | .ok bytes =>
      match Utf8.decode? bytes with
      | none => false
      | some text => (Occurrence.find text).isEmpty

/-- The plan for a file is to fail, to leave it alone or to replace its text by the expanded one. -/
theorem plan_cases (fs : FileSystem) (path : Path) :
    (∃ error, (∀ path' cause, error ≠ .write path' cause) ∧
        Processing.plan path (fs.read path) = .fail error ∧ fs.isPlain path = false) ∨
      (∃ text, Processing.plan path (fs.read path) = .leave text ∧ fs.isPlain path = true) ∨
      ∃ location bytes text e, Expandable fs path location bytes text ∧ expand text = .ok e ∧
        e.properties = (Occurrence.find text).length ∧
        Processing.plan path (fs.read path) = .replace text e ∧ fs.isPlain path = false := by
  cases hread : fs.read path with
  | error cause => exact .inl ⟨.read path cause, by simp, rfl, by simp [isPlain, hread]⟩
  | ok bytes =>
    cases hdecode : Utf8.decode? bytes with
    | none =>
      refine .inl ⟨.read path .notUtf8, by simp, ?_, by simp [isPlain, hread, hdecode]⟩
      simp [Processing.plan, hdecode]
    | some text =>
      obtain ⟨result, -, hexpand⟩ := expand_eq_ok text
      by_cases hfind : Occurrence.find text = []
      · refine .inr (.inl ⟨text, ?_, by simp [isPlain, hread, hdecode, hfind]⟩)
        simp [Processing.plan, hdecode, hexpand, hfind]
      · obtain ⟨location, hlocate, -⟩ := exists_locate_of_read hread
        refine .inr (.inr ⟨location, bytes, text, _, ⟨hlocate, hread, hdecode, hfind⟩, hexpand, rfl, ?_,
          by simp [isPlain, hread, hdecode, hfind]⟩)
        simp [Processing.plan, hdecode, hexpand, hfind]

/-- A file fails before anything is written, or has nothing to expand, or its expanded text is to be
written.  Only in the last case does the mode make a difference. -/
theorem process_cases (fs : FileSystem) (path : Path) :
    (∃ error, (∀ path' cause, error ≠ .write path' cause) ∧
        ∀ mode, process fs path mode = (fs, Processing.failed error)) ∨
      (∃ text, ∀ mode, process fs path mode = (fs, Processing.left path text)) ∨
      ∃ location bytes text e, Expandable fs path location bytes text ∧ expand text = .ok e ∧
        process fs path .dryRun = (fs, Processing.replaced path .dryRun text e (.ok ())) ∧
        process fs path .apply = ((fs.overwrite path (Utf8.encode e.text)).1,
          Processing.replaced path .apply text e (fs.overwrite path (Utf8.encode e.text)).2) := by
  rcases plan_cases fs path with ⟨error, herror, hplan, -⟩ | ⟨text, hplan, -⟩ |
    ⟨location, bytes, text, e, hexpandable, hexpand, -, hplan, -⟩
  · exact .inl ⟨error, herror, fun mode => by simp only [process, hplan]⟩
  · exact .inr (.inl ⟨text, fun mode => by simp only [process, hplan]⟩)
  · exact .inr (.inr ⟨location, bytes, text, e, hexpandable, hexpand, by simp only [process, hplan],
      by simp only [process, hplan]⟩)

namespace Report

theorem filesScanned_withResult (report : Report) (options : Options) (path : Path)
    (result : Processing.Result) :
    (report.withResult options path result).summary.filesScanned =
      report.summary.filesScanned + 1 := by
  unfold withResult
  cases result.outcome with
  | error error => rfl
  | ok outcome =>
    cases hafter : outcome.after with
    | none => simp [hafter]
    | some after => simp [hafter, withChange]

@[simp] theorem summary_finished (report : Report) : report.finished.summary = report.summary :=
  rfl

@[simp] theorem output_finished (report : Report) : report.finished.output = report.output :=
  rfl

end Report

namespace Run

/-- The report of findings that are all dealt with in one and the same tree. -/
def reportAll (options : Options) (fs : FileSystem) (report : Report)
    (found : List Walk.Finding) : Report :=
  found.foldl (fun report finding => (handle options fs report finding).2) report

theorem reportAll_cons (options : Options) (fs : FileSystem) (report : Report)
    (finding : Walk.Finding) (found : List Walk.Finding) :
    reportAll options fs report (finding :: found) =
      reportAll options fs (handle options fs report finding).2 found :=
  rfl

/-- What is written on the way does not show in the report. -/
theorem snd_handleAll (options : Options) {found : List Walk.Finding}
    (hpairwise : (Walk.candidates found).Pairwise fs.Apart) (report : Report)
    (hagree : ∀ path ∈ Walk.candidates found, AgreeOn fs' fs path) :
    (handleAll options fs' report found).2 = reportAll options fs report found := by
  induction found generalizing fs' report with
  | nil => rfl
  | cons finding found ih =>
    rw [handleAll_cons, reportAll_cons]
    cases finding with
    | unreadable path cause => exact ih hpairwise _ hagree
    | candidate path =>
      obtain ⟨hfirst, hrest⟩ := List.pairwise_cons.1 hpairwise
      obtain ⟨hresult, -⟩ := (hagree path (by simp [Walk.candidates])).process options.mode
      simp only [handle, hresult]
      refine ih hrest _ fun path' hmem => ?_
      have hagree' := hagree path' (List.mem_cons_of_mem path hmem)
      exact hagree'.process_of_apart (hfirst path' hmem) options.mode

/-- A run reports what its findings come to in the first tree. -/
theorem snd_run (settings : Settings) (options : Options) (fs : FileSystem) :
    (run settings options fs).2 = (reportAll options fs {} (walk settings fs)).finished := by
  rw [run_eq_handleAll, snd_handleAll options (pairwise_candidates_walk settings fs) {}
    fun path _ => AgreeOn.refl fs path]

/-- A run keeps the shape of the tree.  It leaves each candidate as processing it in the first tree
would, and reports the events of that. -/
theorem run_spec (settings : Settings) (options : Options) (fs : FileSystem) :
    SameShape (run settings options fs).1 fs ∧
      (∀ path ∈ Walk.candidates (walk settings fs),
        AgreeOn (run settings options fs).1 (process fs path options.mode).1 path) ∧
      (run settings options fs).2.events = (walk settings fs).flatMap (eventsOf fs options.mode) ++
        [.complete (run settings options fs).2.summary.totals] := by
  obtain ⟨hshape, hdone, -, hevents⟩ := handleAll_spec options
    (pairwise_candidates_walk settings fs) {} (SameShape.refl fs)
    (fun path _ => AgreeOn.refl fs path)
  rw [run_eq_handleAll]
  refine ⟨hshape, hdone, ?_⟩
  simp only [Report.finished, Report.withEvent, hevents, List.nil_append]

/-- Every candidate is counted, whatever becomes of it. -/
theorem filesScanned_reportAll (options : Options) (fs : FileSystem) (report : Report)
    (found : List Walk.Finding) :
    (reportAll options fs report found).summary.filesScanned =
      report.summary.filesScanned + (Walk.candidates found).length := by
  induction found generalizing report with
  | nil => rfl
  | cons finding found ih =>
    rw [reportAll_cons, ih]
    cases finding with
    | unreadable path cause => rfl
    | candidate path =>
      have hscanned := Report.filesScanned_withResult report options path
        (process fs path options.mode).2
      simp only [handle, hscanned, Walk.candidates, List.filterMap_cons, List.length_cons]
      omega

theorem filesScanned_run (settings : Settings) (options : Options) (fs : FileSystem) :
    (run settings options fs).2.summary.filesScanned =
      (Walk.candidates (walk settings fs)).length := by
  rw [snd_run, Report.summary_finished, filesScanned_reportAll]
  exact Nat.zero_add _

end Run

end BackingField
