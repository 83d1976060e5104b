import BackingField.Proofs.Expansion.Replacement
import BackingField.Proofs.Run.Independence

/-!
# What a run leaves behind

A run that writes changes files only where there is something to expand, and changes nothing but
their contents.  Each such file ends up with its expanded text if it was written, and with its old
contents or too short a beginning of the new ones if that failed (`run_apply`).
-/

namespace BackingField

open FileSystem

/-- A path leads to a file that can be read, is UTF-8 and holds a property to expand. -/
structure Expandable (fs : FileSystem) (path : Path) (location : Location) (bytes : Bytes)
    (text : Text) : Prop where
  located : fs.locate path true = .ok location
  read : fs.read path = .ok bytes
  decoded : Utf8.decode? bytes = some text
  found : Occurrence.find text ≠ []

/-- The file that an event is about. -/
def Event.path? : Event → Option Path
  | nothingToDo path => some path
  | expanded path _ _ => some path
  | unreadable path _ => some path
  | failed error => some error.path
  | complete _ => none

variable {fs : FileSystem} {path : Path} {location : Location} {bytes : Bytes} {text : Text}

/-! ### One file -/

theorem Expandable.contentAt? (h : Expandable fs path location bytes text) :
    fs.tree.contentAt? location = some bytes := by
  obtain ⟨location', hlocate, hcontent⟩ := exists_locate_of_read h.read
  obtain rfl : location = location' := by
    have hlocated := h.located
    rw [hlocate] at hlocated
    simpa [eq_comm] using hlocated
  exact hcontent

/-- The text of such a file is to be replaced by its expanded text. -/
theorem Expandable.plan_eq {e : Expansion} (h : Expandable fs path location bytes text)
    (hexpand : expand text = .ok e) :
    Processing.plan path (fs.read path) = .replace text e := by
  have hproperties : e.properties ≠ 0 := by
    obtain ⟨result, -, hresult⟩ := expand_eq_ok text
    rw [hexpand] at hresult
    rw [Except.ok.inj hresult]
    simpa using h.found
  simp only [Processing.plan, h.read, h.decoded, hexpand, if_neg hproperties]

/-- Such a file is written with its expanded text. -/
theorem Expandable.process_eq {e : Expansion} (h : Expandable fs path location bytes text)
    (hexpand : expand text = .ok e) : process fs path .apply =
      ((fs.overwrite path (Utf8.encode e.text)).1,
        Processing.replaced path .apply text e (fs.overwrite path (Utf8.encode e.text)).2) := by
  simp only [process, h.plan_eq hexpand]

/-- A file without anything to expand is left alone. -/
theorem process_fst_eq_self (mode : WriteMode) (h : ∀ bytes text, fs.read path = .ok bytes →
    Utf8.decode? bytes = some text → Occurrence.find text = []) :
    (process fs path mode).1 = fs := by
  unfold process
  cases hread : fs.read path with
  | error cause => rfl
  | ok bytes =>
    cases hdecode : Utf8.decode? bytes with
    | none => simp [Processing.plan, hdecode]
    | some text =>
      obtain ⟨result, -, hexpand⟩ := expand_eq_ok text
      have hproperties : (Occurrence.find text).length = 0 := by
        rw [h bytes text hread hdecode]
        rfl
      simp [Processing.plan, hdecode, hexpand, hproperties]

namespace Run

/-- Every event that comes from a candidate is about that candidate. -/
theorem path?_of_mem_eventsOf {mode : WriteMode} {e : Event}
    (h : e ∈ eventsOf fs mode (.candidate path)) : e.path? = some path := by
  have hplan : ∀ error, Processing.plan path (fs.read path) = .fail error → error.path = path := by
    intro error hfail
    unfold Processing.plan at hfail
    repeat' split at hfail
    all_goals simp at hfail
    all_goals
      rw [← hfail]
      rfl
  have hreplaced : ∀ mode text expansion written,
      e ∈ eventsOfResult (Processing.replaced path mode text expansion written) →
        e.path? = some path := by
    intro mode text expansion written hmem
    cases written with
    | ok _ =>
      obtain rfl : e = .expanded path expansion.properties mode := by
        simpa [eventsOfResult, Processing.replaced] using hmem
      rfl
    | error cause =>
      obtain rfl : e = .failed (.write path cause) := by
        simpa [eventsOfResult, Processing.replaced, Processing.failed] using hmem
      rfl
  cases hcase : Processing.plan path (fs.read path) with
  | fail error =>
    obtain rfl : e = .failed error := by
      simpa [eventsOf, process, hcase, eventsOfResult, Processing.failed] using h
    simp [Event.path?, hplan error hcase]
  | leave text =>
    obtain rfl : e = .nothingToDo path := by
      simpa [eventsOf, process, hcase, eventsOfResult, Processing.left] using h
    rfl
  | replace text expansion =>
    cases mode with
    | dryRun =>
      simp only [eventsOf, process, hcase] at h
      exact hreplaced _ _ _ _ h
    | apply =>
      simp only [eventsOf, process, hcase] at h
      exact hreplaced _ _ _ _ h

/-- When a run is over, what it has reported about a candidate comes from that candidate. -/
theorem mem_events_finished_iff {mode : WriteMode} {found : List Walk.Finding} {report : Report}
    {e : Event} (hevents : report.events = found.flatMap (eventsOf fs mode))
    (hmem : Walk.Finding.candidate path ∈ found) (hpath : e.path? = some path)
    (hwalk : ∀ cause, e ≠ .unreadable path cause) :
    e ∈ report.finished.events ↔ e ∈ eventsOf fs mode (.candidate path) := by
  have hcomplete : ∀ totals, e ≠ .complete totals := by
    rintro totals rfl
    simp [Event.path?] at hpath
  simp only [Report.finished, Report.withEvent, hevents, List.mem_append, List.mem_singleton,
    hcomplete, or_false]
  constructor
  · intro h
    obtain ⟨finding, -, hfinding⟩ := List.mem_flatMap.1 h
    cases finding with
    | unreadable path' cause =>
      obtain rfl : e = .unreadable path' cause := by simpa [eventsOf] using hfinding
      obtain rfl : path' = path := by simpa [Event.path?] using hpath
      exact absurd rfl (hwalk cause)
    | candidate path' =>
      -- All events of another candidate name that one.
      obtain rfl : path' = path := by
        have hpath' := path?_of_mem_eventsOf hfinding
        rw [hpath] at hpath'
        simpa [eq_comm] using hpath'
      exact hfinding
  · intro h
    exact List.mem_flatMap.2 ⟨_, hmem, h⟩

end Run

/-- A file that is written holds its expanded text and is reported as expanded.  When writing fails,
that is reported, and the file holds what it held or a beginning of the expanded text. -/
theorem Expandable.eventsOf_cases {e : Expansion} (h : Expandable fs path location bytes text)
    (hexpand : expand text = .ok e) :
    (Run.eventsOf fs .apply (.candidate path) = [.expanded path e.properties .apply] ∧
        (process fs path .apply).1.tree.contentAt? location = some (Utf8.encode e.text)) ∨
      ∃ cause, Run.eventsOf fs .apply (.candidate path) = [.failed (.write path cause)] ∧
        ((process fs path .apply).1.tree.contentAt? location = some bytes ∨
          cause = .fileTooLarge ∧ ∃ kept, kept <+: Utf8.encode e.text ∧
            kept ≠ Utf8.encode e.text ∧
            (process fs path .apply).1.tree.contentAt? location = some kept) := by
  simp only [Run.eventsOf, h.process_eq hexpand]
  rcases contentAt?_overwrite (Utf8.encode e.text) h.located with ⟨hok, hnew⟩ |
    ⟨cause, hfailed, hold⟩ | ⟨n, hlt, hfailed, hpart⟩
  · rw [hok]
    exact .inl ⟨rfl, hnew⟩
  · rw [hfailed]
    exact .inr ⟨cause, rfl, .inl (hold.trans h.contentAt?)⟩
  · have hproper : (Utf8.encode e.text).take n ≠ Utf8.encode e.text := by
      intro heq
      have hlength := congrArg List.length heq
      rw [List.length_take] at hlength
      omega
    rw [hfailed]
    exact .inr ⟨_, rfl, .inr ⟨rfl, _, List.take_prefix n _, hproper, hpart⟩⟩

/-- After a run that writes, the tree has the shape that it had: nothing is new, gone or of another
kind, mode or target.  A candidate with something to expand holds its expanded text if it was
written.  If writing it failed, it holds what it held, or part of the expanded text because that was
too long.  One of the two is reported for every such candidate.  Every other file holds what it
held. -/
theorem run_apply (settings : Settings) (showDiff : Bool) (fs : FileSystem) :
    ∃ after report, run settings ⟨.apply, showDiff⟩ fs = (after, report) ∧
      after.tree.skeleton = fs.tree.skeleton ∧
      (∀ path ∈ Walk.candidates (walk settings fs), ∀ location bytes text,
        Expandable fs path location bytes text → ∃ e, expand text = .ok e ∧
          (Event.expanded path e.properties .apply ∈ report.events →
            after.tree.contentAt? location = some (Utf8.encode e.text)) ∧
          (∀ cause, Event.failed (.write path cause) ∈ report.events →
            after.tree.contentAt? location = some bytes ∨
              cause = .fileTooLarge ∧ ∃ kept, kept <+: Utf8.encode e.text ∧
                kept ≠ Utf8.encode e.text ∧ after.tree.contentAt? location = some kept) ∧
          (Event.expanded path e.properties .apply ∈ report.events ∨
            ∃ cause, Event.failed (.write path cause) ∈ report.events)) ∧
      ∀ location, (∀ path ∈ Walk.candidates (walk settings fs), ∀ bytes text,
          ¬ Expandable fs path location bytes text) →
        after.tree.contentAt? location = fs.tree.contentAt? location := by
  obtain ⟨hshape, hdone, hother, hevents⟩ := Run.handleAll_spec ⟨.apply, showDiff⟩
    (pairwise_candidates_walk settings fs) {} (SameShape.refl fs)
    (fun path _ => ⟨SameShape.refl fs, fun _ _ => rfl⟩)
  refine ⟨_, _, Run.run_eq_handleAll settings ⟨.apply, showDiff⟩ fs, hshape.skeleton, ?_, ?_⟩
  · intro path hmem location bytes text hexpandable
    obtain ⟨result, -, hexpand⟩ := expand_eq_ok text
    refine ⟨_, hexpand, ?_⟩
    -- The candidate holds what processing it in the first tree leaves there.
    have hcontent := (hdone path hmem).content location (by
      rw [hshape.locate_eq]
      exact hexpandable.located)
    have hreport (event : Event) (hpath : event.path? = some path)
        (hwalk : ∀ cause, event ≠ .unreadable path cause) :=
      Run.mem_events_finished_iff (by simpa using hevents) (Walk.mem_candidates.1 hmem) hpath hwalk
    rw [hreport _ rfl (by simp)]
    simp only [hreport (.failed (.write path _)) rfl (by simp)]
    rw [hcontent]
    rcases hexpandable.eventsOf_cases hexpand with ⟨hevent, hnew⟩ | ⟨cause, hevent, hold⟩
    · simp [hevent, hnew]
    · simp only [hevent]
      refine ⟨by simp, fun cause' hcause => ?_, .inr ⟨cause, by simp⟩⟩
      obtain rfl : cause' = cause := by simpa using hcause
      exact hold
  · intro location hnone
    by_cases hyielded : ∃ path ∈ Walk.candidates (walk settings fs),
        fs.locate path true = .ok location
    · obtain ⟨path, hmem, hlocate⟩ := hyielded
      have hself : (process fs path .apply).1 = fs := by
        refine process_fst_eq_self .apply fun bytes text hread hdecode => ?_
        cases hfind : Occurrence.find text with
        | nil => rfl
        | cons o later =>
          have hfound : Occurrence.find text ≠ [] := by simp [hfind]
          exact absurd ⟨hlocate, hread, hdecode, hfound⟩ (hnone path hmem bytes text)
      have hcontent := (hdone path hmem).content location (by
        rw [hshape.locate_eq]
        exact hlocate)
      rw [hself] at hcontent
      exact hcontent
    · exact hother location fun path hmem hlocate => hyielded ⟨path, hmem, hlocate⟩

end BackingField
