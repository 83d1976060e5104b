import BackingField.Proofs.Run.Report

/-!
# Writing does not disturb the walk

A run goes on with its walk after every file that it has processed, in the tree as it is by then.
`Run.pulled` lists what such a walk finds, and a run deals with exactly that
(`Run.proceed_eq_handleAll_pulled`).  Whatever processing does to a file, everything that a visit
asks for stays as it is, so what is pulled is what a walk of the first tree finds
(`Run.pulled_eq_findings`, `walk_undisturbed`).
-/

namespace BackingField

open FileSystem

/-- The file that an event reports as processed. -/
def Event.processed? : Event → Option Path
  | nothingToDo path => some path
  | expanded path _ _ => some path
  | failed error => some error.path
  | unreadable _ _ => none
  | complete _ => none

namespace Run

variable {settings : Settings} {options : Options} {fs fs' : FileSystem}

/-- What a run pulls out of its walk: each finding comes from a visit in the tree that is left by
dealing with those before it. -/
def pulled (settings : Settings) (options : Options) :
    (visits : Nat) → List Walk.Item → FileSystem → List Walk.Finding
  | 0, _, _ => []
  | _, [], _ => []
  | visits + 1, item :: items, fs =>
      let v := Walk.visit settings fs item
      match v.finding with
      | none => pulled settings options visits (v.items ++ items) fs
      | some finding =>
          finding :: pulled settings options visits (v.items ++ items)
            (handle options fs {} finding).1

/-- What becomes of the tree does not depend on the report. -/
theorem fst_handle_eq (options : Options) (fs : FileSystem) (report report' : Report)
    (finding : Walk.Finding) :
    (handle options fs report finding).1 = (handle options fs report' finding).1 := by
  cases finding with
  | candidate path => rfl
  | unreadable path cause => rfl

/-- A run deals with what it pulls, and with nothing else. -/
theorem proceed_eq_handleAll_pulled (settings : Settings) (options : Options) (visits : Nat)
    (items : List Walk.Item) (fs : FileSystem) (report : Report) :
    proceed settings options visits items fs report =
      handleAll options fs report (pulled settings options visits items fs) := by
  induction visits generalizing items fs report with
  | zero => rfl
  | succ visits ih =>
    cases items with
    | nil => rfl
    | cons item items =>
      rw [proceed, pulled]
      cases (Walk.visit settings fs item).finding with
      | none => exact ih _ fs report
      | some finding =>
        rw [handleAll_cons, fst_handle_eq options fs {} report finding]
        exact ih _ _ _

/-- As the tree keeps its shape, what is pulled is what is found in the first tree. -/
theorem pulled_eq_findings (options : Options) (visits : Nat) (items : List Walk.Item)
    (h : SameShape fs' fs) :
    pulled settings options visits items fs' = Walk.findings settings fs visits items := by
  induction visits generalizing items fs' with
  | zero => rfl
  | succ visits ih =>
    cases items with
    | nil => rfl
    | cons item items =>
      rw [pulled, Walk.findings, Walk.visit_eq h item]
      cases (Walk.visit settings fs item).finding with
      | none => exact ih _ h
      | some finding =>
        exact congrArg (List.cons finding) (ih _ ((sameShape_handle options fs' {} finding).trans h))

/-! ### What the report says -/

/-- A processed file is reported once, whatever becomes of it. -/
theorem processed_eventsOf_candidate (fs : FileSystem) (mode : WriteMode) (path : Path) :
    (eventsOf fs mode (.candidate path)).filterMap Event.processed? = [path] := by
  have hreplaced (mode : WriteMode) (text : Text) (e : Expansion) (written : Except IoError Unit) :
      ∃ event, eventsOfResult (Processing.replaced path mode text e written) = [event] ∧
        event.processed? = event.path? := by
    cases written with
    | ok _ => exact ⟨_, rfl, rfl⟩
    | error cause => exact ⟨_, rfl, rfl⟩
  have hone : ∃ event, eventsOf fs mode (.candidate path) = [event] ∧
      event.processed? = event.path? := by
    rw [eventsOf]
    rcases process_cases fs path with ⟨error, -, hfailed⟩ | ⟨text, hleft⟩ |
      ⟨location, bytes, text, e, -, -, hdry, happly⟩
    · rw [hfailed]
      exact ⟨_, rfl, rfl⟩
    · rw [hleft]
      exact ⟨_, rfl, rfl⟩
    · cases mode with
      | dryRun =>
        rw [hdry]
        exact hreplaced .dryRun text e (.ok ())
      | apply =>
        rw [happly]
        exact hreplaced .apply text e _
  obtain ⟨event, hevents, hprocessed⟩ := hone
  have hpath : event.path? = some path := path?_of_mem_eventsOf (hevents ▸ List.mem_singleton_self event)
  simp [hevents, hprocessed, hpath]

/-- The files reported as processed are the candidates, in the order in which they were found. -/
theorem processed_eventsOf (fs : FileSystem) (mode : WriteMode) (found : List Walk.Finding) :
    (found.flatMap (eventsOf fs mode)).filterMap Event.processed? = Walk.candidates found := by
  induction found with
  | nil => rfl
  | cons finding found ih =>
    rw [List.flatMap_cons, List.filterMap_append, ih]
    cases finding with
    | unreadable path cause => rfl
    | candidate path =>
      rw [processed_eventsOf_candidate]
      rfl

end Run

/-- Processing a file does not disturb a walk, however it goes and wherever the path leads.  A walk
of the tree that is left finds the same as one of the tree before, that is, the same paths and the
same that could not be looked at, in the same order.  This is also true of a walk that is half done,
with any items still to be visited.  So what a run pulls out of its walk between one file and the
next is what a walk of the first tree finds.  The run deals with that and nothing else, and the files
that it reports as processed are the candidates of that walk in their order. -/
theorem walk_undisturbed (settings : Settings) (fs : FileSystem) :
    (∀ path mode, walk settings (process fs path mode).1 = walk settings fs ∧
      ∀ visits items, Walk.findings settings (process fs path mode).1 visits items =
        Walk.findings settings fs visits items) ∧
    ∀ options,
      let pulled := Run.pulled settings options (Walk.visitBound fs) (Walk.start settings) fs
      pulled = walk settings fs ∧
        run settings options fs = ((Run.handleAll options fs {} pulled).1,
          (Run.handleAll options fs {} pulled).2.finished) ∧
        (run settings options fs).2.events.filterMap Event.processed? =
          Walk.candidates (walk settings fs) := by
  refine ⟨fun path mode => ?_, fun options => ⟨?_, ?_, ?_⟩⟩
  · have hshape : SameShape (process fs path mode).1 fs := sameShape_process fs path mode
    exact ⟨walk_eq hshape settings, fun visits items => Walk.findings_eq hshape visits items⟩
  · exact Run.pulled_eq_findings options _ _ (SameShape.refl fs)
  · rw [run, Run.proceed_eq_handleAll_pulled]
  · obtain ⟨-, -, hevents⟩ := Run.run_spec settings options fs
    rw [hevents, List.filterMap_append, Run.processed_eventsOf]
    exact List.append_nil _

end BackingField
