import BackingField.Proofs.Expansion.Idempotence
import BackingField.Proofs.Run.Report
import BackingField.Proofs.Text.Truncation

/-!
# A second run has nothing to do

Once a file has been processed it is settled: it may not be written, or there is nothing to expand in
it, because it holds its expanded text or a beginning of that (`settled_process`).  Settled files are
left alone, so a run directly behind another one changes nothing (`run_run`).
-/

namespace BackingField

open FileSystem

/-- The file that the path leads to may not be written, or there is nothing in it to expand. -/
def Settled (fs : FileSystem) (path : Path) : Prop :=
  fs.Refuses path ∨ ∀ bytes text, fs.read path = .ok bytes → Utf8.decode? bytes = some text →
    Occurrence.find text = []

variable {fs fs' : FileSystem} {path : Path}

theorem FileSystem.AgreeOn.settled (h : AgreeOn fs fs' path) (hsettled : Settled fs' path) :
    Settled fs path := by
  rcases hsettled with hrefuses | hnothing
  · exact .inl (h.shape.symm.refuses hrefuses)
  · refine .inr fun bytes text hread => hnothing bytes text ?_
    rw [← h.read_eq]
    exact hread

/-! ### One file -/

/-- A file that was processed is settled, whatever came of it. -/
theorem settled_process (fs : FileSystem) (path : Path) :
    Settled (process fs path .apply).1 path := by
  by_cases hexpandable : ∃ location bytes text, Expandable fs path location bytes text
  · obtain ⟨location, bytes, text, hexpandable⟩ := hexpandable
    obtain ⟨result, -, hexpand⟩ := expand_eq_ok text
    rw [hexpandable.process_eq hexpand]
    rcases refuses_or_isPrefix (Utf8.encode result) hexpandable.located with hrefuses |
      ⟨kept, hkept, hcontent⟩
    · obtain ⟨cause, hfailed⟩ := hrefuses.overwrite (Utf8.encode result)
      rw [hfailed]
      exact .inl hrefuses
    · -- What is there now is a beginning of the expanded text, as far as it is a text at all.
      refine .inr fun bytes' text' hread hdecode => ?_
      obtain ⟨location', hlocate, hbytes⟩ := exists_locate_of_read hread
      rw [(sameShape_overwrite fs path _).locate_eq, hexpandable.located] at hlocate
      obtain rfl : location = location' := Except.ok.inj hlocate
      obtain rfl : kept = bytes' := by
        rw [hcontent] at hbytes
        exact Option.some.inj hbytes
      exact find_eq_nil_of_isPrefix_expand hexpand (Utf8.isPrefix_of_decode? hkept hdecode)
  · have hnothing : ∀ bytes text, fs.read path = .ok bytes → Utf8.decode? bytes = some text →
        Occurrence.find text = [] := by
      intro bytes text hread hdecode
      obtain ⟨location, hlocate, -⟩ := exists_locate_of_read hread
      by_contra hfound
      exact hexpandable ⟨location, bytes, text, hlocate, hread, hdecode, hfound⟩
    rw [process_fst_eq_self .apply hnothing]
    exact .inr hnothing

/-- A settled file is left alone, and no change of it is reported. -/
theorem Settled.process (h : Settled fs path) :
    (process fs path .apply).1 = fs ∧
      ∀ outcome, (process fs path .apply).2.outcome = .ok outcome → outcome.after = none := by
  rcases process_cases fs path with ⟨error, -, hfailed⟩ | ⟨text, hleft⟩ |
    ⟨location, bytes, text, e, hexpandable, -, -, hwritten⟩
  · rw [hfailed]
    exact ⟨rfl, fun outcome houtcome => by simp [Processing.failed] at houtcome⟩
  · rw [hleft]
    refine ⟨rfl, fun outcome houtcome => ?_⟩
    rw [← Except.ok.inj houtcome]
  · -- There is something to expand, so the file is one that may not be written.
    rcases h with hrefuses | hnothing
    · obtain ⟨cause, hoverwrite⟩ := hrefuses.overwrite (Utf8.encode e.text)
      rw [hwritten, hoverwrite]
      exact ⟨rfl, fun outcome houtcome => by
        simp [Processing.replaced, Processing.failed] at houtcome⟩
    · exact absurd (hnothing bytes text hexpandable.read hexpandable.decoded) hexpandable.found

/-! ### All files of a run -/

theorem Report.summary_withResult_of_unchanged {result : Processing.Result}
    (h : ∀ outcome, result.outcome = .ok outcome → outcome.after = none) (report : Report)
    (options : Options) (path : Path) :
    (report.withResult options path result).summary.filesFixed = report.summary.filesFixed ∧
      (report.withResult options path result).summary.propertiesExpanded =
        report.summary.propertiesExpanded := by
  unfold withResult
  cases houtcome : result.outcome with
  | error error => exact ⟨rfl, rfl⟩
  | ok outcome => simp [h outcome houtcome]

namespace Run

/-- Findings that are settled leave the tree alone and count no change. -/
theorem handleAll_of_settled {found : List Walk.Finding}
    (h : ∀ path ∈ Walk.candidates found, Settled fs path) (showDiff : Bool) (report : Report) :
    (handleAll ⟨.apply, showDiff⟩ fs report found).1 = fs ∧
      (handleAll ⟨.apply, showDiff⟩ fs report found).2.summary.filesFixed =
        report.summary.filesFixed ∧
      (handleAll ⟨.apply, showDiff⟩ fs report found).2.summary.propertiesExpanded =
        report.summary.propertiesExpanded := by
  induction found generalizing report with
  | nil => exact ⟨rfl, rfl, rfl⟩
  | cons finding found ih =>
    rw [handleAll_cons]
    cases finding with
    | unreadable path cause => exact ih h _
    | candidate path =>
      obtain ⟨hsame, hunchanged⟩ := (h path (by simp [Walk.candidates])).process
      obtain ⟨hfixed, hproperties⟩ := Report.summary_withResult_of_unchanged hunchanged report
        ⟨.apply, showDiff⟩ path
      obtain ⟨htree, hlaterFixed, hlaterProperties⟩ := ih
        (fun path' hmem => h path' (List.mem_cons_of_mem path hmem))
        (report.withResult ⟨.apply, showDiff⟩ path (process fs path .apply).2)
      simp only [handle, hsame]
      exact ⟨htree, hlaterFixed.trans hfixed, hlaterProperties.trans hproperties⟩

/-- A run over settled files leaves the tree alone and counts no change. -/
theorem run_of_settled {settings : Settings}
    (h : ∀ path ∈ Walk.candidates (walk settings fs), Settled fs path) (showDiff : Bool) :
    (run settings ⟨.apply, showDiff⟩ fs).1 = fs ∧
      (run settings ⟨.apply, showDiff⟩ fs).2.summary.filesFixed = 0 ∧
      (run settings ⟨.apply, showDiff⟩ fs).2.summary.propertiesExpanded = 0 := by
  rw [run_eq_handleAll]
  exact handleAll_of_settled h showDiff {}

/-- After a run every candidate of its walk is settled. -/
theorem settled_run (settings : Settings) (showDiff : Bool) (fs : FileSystem) :
    ∀ path ∈ Walk.candidates (walk settings fs),
      Settled (run settings ⟨.apply, showDiff⟩ fs).1 path := by
  obtain ⟨-, hdone, -⟩ := run_spec settings ⟨.apply, showDiff⟩ fs
  intro path hmem
  -- The candidate is as processing it in the first tree would have left it.
  exact (hdone path hmem).settled (settled_process fs path)

end Run

/-- A run that writes, directly behind another one, leaves everything as that one left it.  It scans
as many files, and it neither fixes a file nor expands a property. -/
theorem run_run (settings : Settings) (showDiff : Bool) (fs : FileSystem) :
    ∃ after first second, run settings ⟨.apply, showDiff⟩ fs = (after, first) ∧
      run settings ⟨.apply, showDiff⟩ after = (after, second) ∧
      second.summary.filesFixed = 0 ∧ second.summary.propertiesExpanded = 0 ∧
      second.summary.filesScanned = first.summary.filesScanned := by
  obtain ⟨hshape, -, -⟩ := Run.run_spec settings ⟨.apply, showDiff⟩ fs
  have hwalk := walk_eq hshape settings
  have hsettled := Run.settled_run settings showDiff fs
  rw [← hwalk] at hsettled
  obtain ⟨htree, hfixed, hproperties⟩ := Run.run_of_settled hsettled showDiff
  refine ⟨(run settings ⟨.apply, showDiff⟩ fs).1, (run settings ⟨.apply, showDiff⟩ fs).2,
    (run settings ⟨.apply, showDiff⟩ (run settings ⟨.apply, showDiff⟩ fs).1).2, rfl,
    Prod.ext htree rfl, hfixed, hproperties, ?_⟩
  rw [Run.filesScanned_run, Run.filesScanned_run, hwalk]

end BackingField
