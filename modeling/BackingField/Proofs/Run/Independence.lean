import BackingField.Proofs.FileSystem.Writing
import BackingField.Proofs.Walk.Separation
import BackingField.Run

/-!
# Every file is processed as if it were the first

A run goes through the findings of the walk of the tree it starts with, although it writes to the
tree on the way (`Run.proceed_eq_handleAll`).  When the turn of a candidate comes, the tree still has its
first shape and the candidate its first contents, so processing it comes to what it would have come
to at the beginning (`Run.handleAll_spec`).
-/

namespace BackingField

open FileSystem

variable {fs fs' : FileSystem} {path : Path} {location : Location}

/-! ### Processing one file -/

/-- Processing a file leaves everything as it is, or puts new contents into the file. -/
theorem process_fst_cases (fs : FileSystem) (path : Path) (mode : WriteMode) :
    (process fs path mode).1 = fs ∨
      ∃ bytes, (process fs path mode).1 = (fs.overwrite path bytes).1 := by
  unfold process
  cases Processing.plan path (fs.read path) with
  | fail error => exact .inl rfl
  | leave text => exact .inl rfl
  | replace text expansion =>
    cases mode with
    | dryRun => exact .inl rfl
    | apply => exact .inr ⟨_, rfl⟩

/-- The result depends on what can be read from the file, and on how writing to it would go. -/
theorem process_snd_congr (hread : fs.read path = fs'.read path)
    (hwrite : ∀ bytes, (fs.overwrite path bytes).2 = (fs'.overwrite path bytes).2)
    (mode : WriteMode) : (process fs path mode).2 = (process fs' path mode).2 := by
  unfold process
  rw [hread]
  cases Processing.plan path (fs'.read path) with
  | fail error => rfl
  | leave text => rfl
  | replace text expansion =>
    cases mode with
    | dryRun => rfl
    | apply => exact congrArg (Processing.replaced path .apply text expansion) (hwrite _)

theorem sameShape_process (fs : FileSystem) (path : Path) (mode : WriteMode) :
    SameShape (process fs path mode).1 fs := by
  rcases process_fst_cases fs path mode with hsame | ⟨bytes, hwritten⟩
  · rw [hsame]
    exact SameShape.refl fs
  · rw [hwritten]
    exact sameShape_overwrite fs path bytes

theorem contentAt?_process_of_ne (mode : WriteMode) (hne : fs.locate path true ≠ .ok location) :
    (process fs path mode).1.tree.contentAt? location = fs.tree.contentAt? location := by
  rcases process_fst_cases fs path mode with hsame | ⟨bytes, hwritten⟩
  · rw [hsame]
  · rw [hwritten]
    exact contentAt?_overwrite_of_ne bytes hne

/-- What becomes of a file depends on the shape of the tree and on the contents of that file. -/
theorem FileSystem.AgreeOn.process (h : AgreeOn fs fs' path) (mode : WriteMode) :
    (process fs path mode).2 = (process fs' path mode).2 ∧
      AgreeOn (process fs path mode).1 (process fs' path mode).1 path := by
  unfold BackingField.process
  rw [h.read_eq]
  cases Processing.plan path (fs'.read path) with
  | fail error => exact ⟨rfl, h⟩
  | leave text => exact ⟨rfl, h⟩
  | replace text expansion =>
    cases mode with
    | dryRun => exact ⟨rfl, h⟩
    | apply =>
      obtain ⟨hresult, hagree⟩ := h.overwrite (Utf8.encode expansion.text)
      exact ⟨congrArg (Processing.replaced path .apply text expansion) hresult, hagree⟩

/-- Processing a file leaves alone every file that is apart from it. -/
theorem FileSystem.AgreeOn.process_of_apart {path' : Path} (h : AgreeOn fs' fs path')
    (hapart : fs.Apart path path') (mode : WriteMode) :
    AgreeOn (BackingField.process fs' path mode).1 fs path' := by
  have hshape : SameShape (BackingField.process fs' path mode).1 fs :=
    (sameShape_process fs' path mode).trans h.shape
  refine ⟨hshape, fun location hlocate => ?_⟩
  rw [(sameShape_process fs' path mode).locate_eq] at hlocate
  have hne : fs'.locate path true ≠ .ok location := by
    intro hsame
    rw [h.shape.locate_eq] at hsame hlocate
    exact (hapart location location hsame hlocate).1 (List.prefix_refl location)
  rw [contentAt?_process_of_ne mode hne]
  exact h.content location hlocate

/-! ### The findings of a run -/

namespace Run

/-- Deal with findings one after another. -/
def handleAll (options : Options) (fs : FileSystem) (report : Report)
    (found : List Walk.Finding) : FileSystem × Report :=
  found.foldl (fun state finding => handle options state.1 state.2 finding) (fs, report)

theorem handleAll_cons (options : Options) (fs : FileSystem) (report : Report)
    (finding : Walk.Finding) (found : List Walk.Finding) :
    handleAll options fs report (finding :: found) =
      handleAll options (handle options fs report finding).1 (handle options fs report finding).2
        found :=
  rfl

theorem sameShape_handle (options : Options) (fs : FileSystem) (report : Report)
    (finding : Walk.Finding) : SameShape (handle options fs report finding).1 fs := by
  cases finding with
  | unreadable path cause => exact SameShape.refl fs
  | candidate path => exact sameShape_process fs path options.mode

/-- A run deals with what the walk finds in the tree before anything is written. -/
theorem proceed_eq_handleAll (settings : Settings) (options : Options) {visits : Nat}
    {items : List Walk.Item} (report : Report) (h : SameShape fs' fs) :
    proceed settings options visits items fs' report =
      handleAll options fs' report (Walk.findings settings fs visits items) := by
  induction visits generalizing items fs' report with
  | zero => rfl
  | succ visits ih =>
    cases items with
    | nil => rfl
    | cons item items =>
      rw [proceed, Walk.findings, Walk.visit_eq h item]
      cases (Walk.visit settings fs item).finding with
      | none => exact ih report h
      | some finding =>
        have hnext : SameShape (handle options fs' report finding).1 fs :=
          (sameShape_handle options fs' report finding).trans h
        exact ih _ hnext

theorem run_eq_handleAll (settings : Settings) (options : Options) (fs : FileSystem) :
    run settings options fs = ((handleAll options fs {} (walk settings fs)).1,
      (handleAll options fs {} (walk settings fs)).2.finished) := by
  unfold run
  rw [proceed_eq_handleAll settings options {} (SameShape.refl fs)]
  rfl

/-- The events of a processed file, with the failure that is reported behind them. -/
def eventsOfResult (result : Processing.Result) : List Event :=
  match result.outcome with
  | .error error => result.events ++ [.failed error]
  | .ok _ => result.events

/-- The events that come from a finding. -/
def eventsOf (fs : FileSystem) (mode : WriteMode) : Walk.Finding → List Event
  | .unreadable path cause => [.unreadable path cause]
  | .candidate path => eventsOfResult (process fs path mode).2

theorem events_withResult (report : Report) (options : Options) (path : Path)
    (result : Processing.Result) :
    (report.withResult options path result).events = report.events ++ eventsOfResult result := by
  unfold Report.withResult eventsOfResult
  cases result.outcome with
  | error error => simp
  | ok outcome =>
    cases hafter : outcome.after with
    | none => simp [hafter]
    | some after => simp [hafter, Report.withChange]

/-- After findings that are apart from each other, the tree has its first shape, each candidate holds
what processing it at first would have left, and every other place holds what it held.  The events
are those that processing at first would have given. -/
theorem handleAll_spec (options : Options) {found : List Walk.Finding}
    (hpairwise : (Walk.candidates found).Pairwise fs.Apart) {fs' : FileSystem} (report : Report)
    (hshape : SameShape fs' fs) (hagree : ∀ path ∈ Walk.candidates found, AgreeOn fs' fs path) :
    SameShape (handleAll options fs' report found).1 fs ∧
      (∀ path ∈ Walk.candidates found, AgreeOn (handleAll options fs' report found).1
        (process fs path options.mode).1 path) ∧
      (∀ location, (∀ path ∈ Walk.candidates found, fs.locate path true ≠ .ok location) →
        (handleAll options fs' report found).1.tree.contentAt? location =
          fs'.tree.contentAt? location) ∧
      (handleAll options fs' report found).2.events =
        report.events ++ found.flatMap (eventsOf fs options.mode) := by
  induction found generalizing fs' report with
  | nil =>
    refine ⟨hshape, by simp [Walk.candidates], fun _ _ => rfl, ?_⟩
    simp [handleAll]
  | cons finding found ih =>
    rw [handleAll_cons]
    cases finding with
    | unreadable path cause =>
      obtain ⟨hfinal, hdone, hother, hevents⟩ :=
        ih hpairwise (report.withEvent (.unreadable path cause)) hshape hagree
      refine ⟨hfinal, hdone, hother, hevents.trans ?_⟩
      simp [eventsOf, Report.withEvent]
    | candidate path =>
      obtain ⟨hfirst, hrest⟩ := List.pairwise_cons.1 hpairwise
      obtain ⟨hresult, hwritten⟩ := (hagree path (by simp [Walk.candidates])).process options.mode
      have hnext : SameShape (process fs' path options.mode).1 fs :=
        (sameShape_process fs' path options.mode).trans hshape
      -- Writing this file does not touch those that are still to come.
      have hlater : ∀ path' ∈ Walk.candidates found,
          AgreeOn (process fs' path options.mode).1 fs path' := by
        intro path' hmem
        have hagree' := hagree path' (List.mem_cons_of_mem path hmem)
        exact hagree'.process_of_apart (hfirst path' hmem) options.mode
      obtain ⟨hfinal, hdone, hother, hevents⟩ :=
        ih hrest (report.withResult options path (process fs' path options.mode).2) hnext hlater
      refine ⟨hfinal, ?_, ?_, hevents.trans ?_⟩
      · intro path' hmem
        rcases List.mem_cons.1 hmem with rfl | hmem
        · -- Nor do those that come later touch this one.
          refine ⟨hfinal.trans (sameShape_process fs path' options.mode).symm, fun location hlocate => ?_⟩
          have hhere : fs.locate path' true = .ok location := by
            rw [← hfinal.locate_eq]
            exact hlocate
          have huntouched := hother location fun path'' hmem'' hsame =>
            (hfirst path'' hmem'' location location hhere hsame).1 (List.prefix_refl location)
          refine huntouched.trans (hwritten.content location ?_)
          rw [hnext.locate_eq]
          exact hhere
        · exact hdone path' hmem
      · intro location hnone
        have hne : fs'.locate path true ≠ .ok location := by
          rw [hshape.locate_eq]
          exact hnone path (by simp [Walk.candidates])
        rw [← contentAt?_process_of_ne options.mode hne]
        exact hother location fun path' hmem => hnone path' (List.mem_cons_of_mem path hmem)
      · rw [events_withResult, hresult, List.flatMap_cons, List.append_assoc]
        rfl

end Run
end BackingField
