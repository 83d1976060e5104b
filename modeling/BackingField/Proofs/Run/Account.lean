import BackingField.Proofs.Diff.Totals
import BackingField.Proofs.Expansion.Idempotence
import BackingField.Proofs.Run.DryRun
import BackingField.Text.Utf8.RoundTrip

/-!
# The report accounts for every file

Each candidate is fixed, fails or has nothing to expand, and the report counts it as that
(`Accounts.withResult_process`).  The changes of the fixed files determine the rest of the report:
the properties, the lines of the diffs, and the output.  An expanded text is never the text before
it, so a fixed file is a changed one, in the tree as in the totals of the diffs
(`report_matches_effects`).
-/

namespace BackingField

open FileSystem

/-- A file that is fixed, with its text before and after. -/
structure Change where
  path : Path
  before : Text
  after : Text

namespace Change

/-- The change takes a file with something to expand from its text to the expanded text. -/
def Expands (c : Change) (fs : FileSystem) : Prop :=
  ∃ location bytes, Expandable fs c.path location bytes c.before ∧
    expand c.before = .ok ⟨c.after, (Occurrence.find c.before).length⟩

/-- The diff of a change as it is printed. -/
def diff (c : Change) : Diff.Report :=
  Diff.printed c.path.shown c.before c.after

/-- What is printed for a change: its diff, if it is to be shown, and a notice. -/
def output (options : Options) (c : Change) : Text :=
  Report.shownDiff options.showDiff c.path c.before c.after ++ Report.notice options.mode c.path

/-- Totals of the diffs of all changes, as far as they are shown. -/
def totals (showDiff : Bool) (changes : List Change) : Diff.LineStats :=
  if showDiff then
    ⟨changes.length, Diff.sumOf (fun c => c.diff.stats.linesAdded) changes,
      Diff.sumOf (fun c => c.diff.stats.linesRemoved) changes⟩
  else
    {}

variable {c : Change} {fs : FileSystem}

/-- An expanded text differs from the text before it: something is found in one and nothing in the
other. -/
theorem Expands.before_ne_after (h : c.Expands fs) : c.before ≠ c.after := by
  obtain ⟨location, bytes, hexpandable, hexpand⟩ := h
  intro hsame
  have hnothing := find_eq_nil_of_isPrefix_expand hexpand (List.prefix_refl c.after)
  rw [← hsame] at hnothing
  exact hexpandable.found hnothing

/-- So the diff of a change counts as one changed file, and is printed. -/
theorem Expands.diff_spec (h : c.Expands fs) :
    c.diff.stats.filesChanged = 1 ∧ c.diff.text ≠ [] := by
  have hchanged := Diff.filesChanged_unified h.before_ne_after c.path.shown 3
  have hdiff : c.diff = Diff.unified c.path.shown c.before c.after 3 := by
    rw [diff, Diff.printed]
    exact if_pos (by omega)
  rw [hdiff]
  -- The names of the two versions stand at the top.
  refine ⟨hchanged, List.append_ne_nil_of_left_ne_nil ?_ _⟩
  simp

theorem totals_concat (showDiff : Bool) (changes : List Change) (h : c.Expands fs) :
    totals showDiff (changes ++ [c]) =
      (totals showDiff changes).add (if showDiff then c.diff.stats else {}) := by
  cases showDiff with
  | false => rfl
  | true => simp [totals, Diff.LineStats.add, h.diff_spec.1, Diff.sumOf]

end Change

/-! ### One file -/

/-- The change that a candidate comes to, if it is fixed. -/
def Run.changeOf (fs : FileSystem) (mode : WriteMode) (path : Path) : Option Change :=
  match (process fs path mode).2.outcome with
  | .error _ => none
  | .ok outcome => outcome.after.map fun after => ⟨path, outcome.before, after⟩

/-- A candidate fails, or is plain, or is changed. -/
theorem Run.changeOf_cases (fs : FileSystem) (mode : WriteMode) (path : Path) :
    (∃ error, (process fs path mode).2 = Processing.failed error ∧
        changeOf fs mode path = none ∧ fs.isPlain path = false) ∨
      (∃ text, (process fs path mode).2 = Processing.left path text ∧
        changeOf fs mode path = none ∧ fs.isPlain path = true) ∨
      ∃ text e, (process fs path mode).2 = Processing.replaced path mode text e (.ok ()) ∧
        changeOf fs mode path = some ⟨path, text, e.text⟩ ∧ fs.isPlain path = false ∧
        Change.Expands ⟨path, text, e.text⟩ fs ∧ e.properties = (Occurrence.find text).length := by
  rcases plan_cases fs path with ⟨error, -, hplan, hplain⟩ | ⟨text, hplan, hplain⟩ |
    ⟨location, bytes, text, e, hexpandable, hexpand, hproperties, hplan, hplain⟩
  · refine .inl ⟨error, ?_⟩
    simp [changeOf, process, hplan, hplain, Processing.failed]
  · refine .inr (.inl ⟨text, ?_⟩)
    simp [changeOf, process, hplan, hplain, Processing.left]
  · have hexpands : Change.Expands ⟨path, text, e.text⟩ fs := by
      refine ⟨location, bytes, hexpandable, ?_⟩
      show expand text = .ok ⟨e.text, (Occurrence.find text).length⟩
      rw [hexpand, ← hproperties]
    -- Only a write that fails keeps the file from being changed.
    obtain ⟨written, hresult⟩ : ∃ written,
        (process fs path mode).2 = Processing.replaced path mode text e written := by
      cases mode with
      | dryRun => exact ⟨.ok (), by simp only [process, hplan]⟩
      | apply =>
        exact ⟨(fs.overwrite path (Utf8.encode e.text)).2, by simp only [process, hplan]⟩
    cases written with
    | error cause =>
      refine .inl ⟨.write path cause, hresult, ?_, hplain⟩
      rw [changeOf, hresult]
      rfl
    | ok _ =>
      refine .inr (.inr ⟨text, e, hresult, ?_, hplain, hexpands, hproperties⟩)
      rw [changeOf, hresult]
      rfl

/-- The contents that a path led to before have been replaced in full by their expanded text, which is
something else. -/
def FileSystem.ReplacedByExpansion (before after : FileSystem) (path : Path) : Prop :=
  ∃ location bytes text e, before.locate path true = .ok location ∧
    before.tree.contentAt? location = some bytes ∧ Utf8.decode? bytes = some text ∧
    expand text = .ok e ∧ Utf8.encode e.text ≠ bytes ∧
    after.tree.contentAt? location = some (Utf8.encode e.text)

section Contents

variable {fs after : FileSystem} {path : Path} {location : Location} {bytes : Bytes} {text : Text}
  {e : Expansion}

/-- An expanded text is not stored as the text before it was: nothing is found in it any more. -/
theorem Expandable.encode_ne (h : Expandable fs path location bytes text)
    (hexpand : expand text = .ok e) : Utf8.encode e.text ≠ bytes := by
  intro hsame
  have hdecoded := h.decoded
  rw [← hsame, Utf8.decode?_encode] at hdecoded
  have hnothing := find_eq_nil_of_isPrefix_expand hexpand (List.prefix_refl e.text)
  rw [Option.some.inj hdecoded] at hnothing
  exact h.found hnothing

theorem Expandable.replacedByExpansion_iff (h : Expandable fs path location bytes text)
    (hexpand : expand text = .ok e) :
    fs.ReplacedByExpansion after path ↔
      after.tree.contentAt? location = some (Utf8.encode e.text) := by
  constructor
  · rintro ⟨location', bytes', text', e', hlocate, hbytes, hdecode, hexpand', -, hnew⟩
    obtain rfl : location = location' := Except.ok.inj (h.located.symm.trans hlocate)
    obtain rfl : bytes = bytes' := Option.some.inj (h.contentAt?.symm.trans hbytes)
    obtain rfl : text = text' := Option.some.inj (h.decoded.symm.trans hdecode)
    obtain rfl : e = e' := Except.ok.inj (hexpand.symm.trans hexpand')
    exact hnew
  · intro hnew
    exact ⟨location, bytes, text, e, h.located, h.contentAt?, h.decoded, hexpand,
      h.encode_ne hexpand, hnew⟩

end Contents

/-! ### All files -/

/-- A report accounts for the files at the given paths, of which the given changes were made. -/
structure Accounts (options : Options) (fs : FileSystem) (paths : List Path)
    (changes : List Change) (report : Report) : Prop where
  scanned : report.summary.filesScanned = paths.length
  parted : paths.length =
    report.summary.filesFixed + report.summary.filesFailed + paths.countP fs.isPlain
  fixed : report.summary.filesFixed = changes.length
  properties : report.summary.propertiesExpanded =
    Diff.sumOf (fun c => (Occurrence.find c.before).length) changes
  diff : report.summary.diff = Change.totals options.showDiff changes
  output : report.output = changes.flatMap (Change.output options)

namespace Accounts

variable {options : Options} {fs : FileSystem} {paths : List Path} {changes : List Change}
  {report : Report}

theorem start (options : Options) (fs : FileSystem) : Accounts options fs [] [] {} where
  scanned := rfl
  parted := rfl
  fixed := rfl
  properties := rfl
  diff := by cases hshow : options.showDiff <;> rfl
  output := rfl

theorem withResult_failed (h : Accounts options fs paths changes report) {path : Path}
    (error : FileError) (hplain : fs.isPlain path = false) :
    Accounts options fs (paths ++ [path]) changes
      (report.withResult options path (Processing.failed error)) where
  scanned := by simp [Report.withResult, Processing.failed, h.scanned]
  parted := by
    have hparted := h.parted
    simp [Report.withResult, Processing.failed, hplain]
    omega
  fixed := h.fixed
  properties := h.properties
  diff := h.diff
  output := h.output

theorem withResult_left (h : Accounts options fs paths changes report) {path : Path}
    (text : Text) (hplain : fs.isPlain path = true) :
    Accounts options fs (paths ++ [path]) changes
      (report.withResult options path (Processing.left path text)) where
  scanned := by simp [Report.withResult, Processing.left, h.scanned]
  parted := by
    have hparted := h.parted
    simp [Report.withResult, Processing.left, hplain]
    omega
  fixed := h.fixed
  properties := h.properties
  diff := h.diff
  output := h.output

theorem withResult_replaced (h : Accounts options fs paths changes report) {path : Path}
    {text : Text} {e : Expansion} (hplain : fs.isPlain path = false)
    (hexpands : Change.Expands ⟨path, text, e.text⟩ fs)
    (hproperties : e.properties = (Occurrence.find text).length) :
    Accounts options fs (paths ++ [path]) (changes ++ [⟨path, text, e.text⟩])
      (report.withResult options path (Processing.replaced path options.mode text e (.ok ()))) where
  scanned := by simp [Report.withResult, Processing.replaced, Report.withChange, h.scanned]
  parted := by
    have hparted := h.parted
    simp [Report.withResult, Processing.replaced, Report.withChange, hplain]
    omega
  fixed := by simp [Report.withResult, Processing.replaced, Report.withChange, h.fixed]
  properties := by
    simp [Report.withResult, Processing.replaced, Report.withChange, h.properties, hproperties,
      Diff.sumOf]
  diff := by
    rw [Change.totals_concat options.showDiff changes hexpands, ← h.diff]
    cases hshow : options.showDiff with
    | false => simp [Report.withResult, Processing.replaced, Report.withChange, hshow]
    | true => simp [Report.withResult, Processing.replaced, Report.withChange, hshow, Change.diff]
  output := by
    rw [Report.output_withResult_replaced, h.output, List.flatMap_append, List.flatMap_singleton,
      Change.output, List.append_assoc]

/-- Processing one more file keeps the account. -/
theorem withResult_process (h : Accounts options fs paths changes report) (path : Path) :
    Accounts options fs (paths ++ [path])
      (changes ++ (Run.changeOf fs options.mode path).toList)
      (report.withResult options path (process fs path options.mode).2) := by
  rcases Run.changeOf_cases fs options.mode path with ⟨error, hresult, hchange, hplain⟩ |
    ⟨text, hresult, hchange, hplain⟩ |
    ⟨text, e, hresult, hchange, hplain, hexpands, hproperties⟩
  · rw [hresult, hchange, Option.toList_none, List.append_nil]
    exact h.withResult_failed error hplain
  · rw [hresult, hchange, Option.toList_none, List.append_nil]
    exact h.withResult_left text hplain
  · rw [hresult, hchange, Option.toList_some]
    exact h.withResult_replaced hplain hexpands hproperties

theorem reportAll (h : Accounts options fs paths changes report) (found : List Walk.Finding) :
    Accounts options fs (paths ++ Walk.candidates found)
      (changes ++ (Walk.candidates found).filterMap (Run.changeOf fs options.mode))
      (Run.reportAll options fs report found) := by
  induction found generalizing paths changes report with
  | nil => simpa [Walk.candidates, Run.reportAll] using h
  | cons finding found ih =>
    rw [Run.reportAll_cons]
    cases finding with
    | unreadable path cause =>
      exact ih ⟨h.scanned, h.parted, h.fixed, h.properties, h.diff, h.output⟩
    | candidate path =>
      have hlater := ih (h.withResult_process path)
      have hpaths : paths ++ Walk.candidates (.candidate path :: found) =
          paths ++ [path] ++ Walk.candidates found := by
        simp [Walk.candidates]
      have hchanges : changes ++ (Walk.candidates (.candidate path :: found)).filterMap
            (Run.changeOf fs options.mode) =
          changes ++ (Run.changeOf fs options.mode path).toList ++
            (Walk.candidates found).filterMap (Run.changeOf fs options.mode) := by
        cases hchange : Run.changeOf fs options.mode path with
        | none => simp [Walk.candidates, hchange]
        | some c => simp [Walk.candidates, hchange]
      rw [hpaths, hchanges]
      exact hlater

end Accounts

namespace Run

variable {fs : FileSystem} {path : Path}

/-- Every change is the one of the candidate that it names. -/
theorem eq_of_changeOf {mode : WriteMode} {c : Change} (h : changeOf fs mode path = some c) :
    c.path = path ∧ c.Expands fs := by
  rcases changeOf_cases fs mode path with ⟨error, -, hnone, -⟩ | ⟨text, -, hnone, -⟩ |
    ⟨text, e, -, hsome, -, hexpands, -⟩
  · simp [hnone] at h
  · simp [hnone] at h
  · obtain rfl : _ = c := by simpa [hsome] using h
    exact ⟨rfl, hexpands⟩

/-- The changes of all candidates come in the order of the candidates. -/
theorem map_path_changes (fs : FileSystem) (mode : WriteMode) (paths : List Path) :
    (paths.filterMap (changeOf fs mode)).map Change.path =
      paths.filter fun path => (changeOf fs mode path).isSome := by
  induction paths with
  | nil => rfl
  | cons path paths ih =>
    cases hchange : changeOf fs mode path with
    | none => simpa [hchange] using ih
    | some c => simpa [hchange, (eq_of_changeOf hchange).1] using ih

/-- A dry run changes every file with something to expand. -/
theorem isSome_changeOf_dryRun_iff : (changeOf fs .dryRun path).isSome ↔
    ∃ location bytes text, Expandable fs path location bytes text := by
  constructor
  · intro h
    obtain ⟨c, hchange⟩ := Option.isSome_iff_exists.1 h
    obtain ⟨rfl, location, bytes, hexpandable, -⟩ := eq_of_changeOf hchange
    exact ⟨location, bytes, c.before, hexpandable⟩
  · rintro ⟨location, bytes, text, hexpandable⟩
    obtain ⟨result, -, hexpand⟩ := expand_eq_ok text
    simp [changeOf, process, Processing.plan, Processing.replaced, hexpandable.read,
      hexpandable.decoded, hexpand, hexpandable.found]

/-- A run that writes changes the files whose contents are replaced by their expanded text. -/
theorem isSome_changeOf_apply_iff :
    (changeOf fs .apply path).isSome ↔ ReplacedByExpansion fs (process fs path .apply).1 path := by
  have hunchanged (hsame : (process fs path .apply).1 = fs) :
      ¬ ReplacedByExpansion fs (process fs path .apply).1 path := by
    rintro ⟨location, bytes, text, e, -, hold, -, -, hne, hnew⟩
    rw [hsame, hold] at hnew
    exact hne (Option.some.inj hnew).symm
  rcases process_cases fs path with ⟨error, -, hfailed⟩ | ⟨text, hleft⟩ |
    ⟨location, bytes, text, e, hexpandable, hexpand, -, hwritten⟩
  · have hnone : changeOf fs .apply path = none := by
      rw [changeOf, hfailed]
      rfl
    simpa [hnone] using hunchanged (by rw [hfailed])
  · have hnone : changeOf fs .apply path = none := by
      rw [changeOf, hleft]
      rfl
    simpa [hnone] using hunchanged (by rw [hleft])
  · -- The file has its expanded text exactly if writing it went well.
    rw [hexpandable.replacedByExpansion_iff hexpand, hwritten]
    rcases contentAt?_overwrite (Utf8.encode e.text) hexpandable.located with ⟨hok, hnew⟩ |
      ⟨cause, hfailed, hold⟩ | ⟨n, hlt, hfailed, hpart⟩
    · simp [changeOf, hwritten, hok, hnew, Processing.replaced]
    · have hdiffers := hexpandable.encode_ne hexpand
      simp [changeOf, hwritten, hfailed, hold, hexpandable.contentAt?, Processing.replaced,
        Processing.failed, hdiffers.symm]
    · have hshort : (Utf8.encode e.text).take n ≠ Utf8.encode e.text := by
        intro hsame
        have hlength := congrArg List.length hsame
        rw [List.length_take] at hlength
        omega
      simp [changeOf, hwritten, hfailed, hpart, Processing.replaced, Processing.failed, hshort]

/-- Whether the contents behind a path have been replaced can be seen in any tree that agrees on that
path. -/
theorem replacedByExpansion_congr {after after' : FileSystem} (hshape : SameShape after' fs)
    (h : AgreeOn after' after path) :
    fs.ReplacedByExpansion after path ↔ fs.ReplacedByExpansion after' path := by
  unfold ReplacedByExpansion
  refine exists_congr fun location => exists_congr fun bytes => exists_congr fun text =>
    exists_congr fun e => and_congr_right fun hlocate => ?_
  rw [← hshape.locate_eq] at hlocate
  rw [h.content location hlocate]

end Run

/-- The report of a run matches what the run does.  Every candidate is scanned, and it is fixed,
fails, or is read without anything to expand in it.  The changes of the fixed files, in the order of
the walk, give the number of expanded properties, the totals of the diffs and the output.  A dry run
fixes every file with something to expand.  A run that writes fixes the files whose contents it
replaces in full by their expanded text, which is never what they held before. -/
theorem report_matches_effects (settings : Settings) (options : Options) (fs : FileSystem) :
    ∃ (after : FileSystem) (report : Report) (changes : List Change),
      run settings options fs = (after, report) ∧
      (changes.map Change.path).Sublist (Walk.candidates (walk settings fs)) ∧
      (∀ c ∈ changes, c.Expands fs ∧ c.before ≠ c.after ∧ c.diff.text ≠ []) ∧
      report.summary.filesScanned = (Walk.candidates (walk settings fs)).length ∧
      report.summary.filesScanned = report.summary.filesFixed + report.summary.filesFailed +
        (Walk.candidates (walk settings fs)).countP fs.isPlain ∧
      report.summary.filesFixed = changes.length ∧
      report.summary.propertiesExpanded =
        Diff.sumOf (fun c => (Occurrence.find c.before).length) changes ∧
      report.summary.filesFixed ≤ report.summary.propertiesExpanded ∧
      report.summary.diff = (if options.showDiff then
        ⟨report.summary.filesFixed, Diff.sumOf (fun c => c.diff.stats.linesAdded) changes,
          Diff.sumOf (fun c => c.diff.stats.linesRemoved) changes⟩ else ⟨0, 0, 0⟩) ∧
      report.output = (changes.flatMap fun c =>
        (if options.showDiff then c.diff.text else []) ++ Report.notice options.mode c.path) ∧
      ∀ path ∈ Walk.candidates (walk settings fs),
        (options.mode = .dryRun → (path ∈ changes.map Change.path ↔
          ∃ location bytes text, Expandable fs path location bytes text)) ∧
        (options.mode = .apply →
          (path ∈ changes.map Change.path ↔ fs.ReplacedByExpansion after path)) := by
  have haccounts := (Accounts.start options fs).reportAll (walk settings fs)
  rw [List.nil_append, List.nil_append] at haccounts
  obtain ⟨hshape, hdone, -⟩ := Run.run_spec settings options fs
  have hexpands : ∀ c ∈ (Walk.candidates (walk settings fs)).filterMap
      (Run.changeOf fs options.mode), c.Expands fs := by
    intro c hmem
    obtain ⟨path, -, hchange⟩ := List.mem_filterMap.1 hmem
    exact (Run.eq_of_changeOf hchange).2
  refine ⟨(run settings options fs).1, (Run.reportAll options fs {} (walk settings fs)).finished, _,
    Prod.ext rfl (Run.snd_run settings options fs), ?_, ?_, haccounts.scanned,
    haccounts.scanned.trans haccounts.parted, haccounts.fixed, haccounts.properties, ?_, ?_,
    haccounts.output, ?_⟩
  · rw [Run.map_path_changes]
    exact List.filter_sublist
  · intro c hmem
    exact ⟨hexpands c hmem, (hexpands c hmem).before_ne_after, (hexpands c hmem).diff_spec.2⟩
  · rw [Report.summary_finished, haccounts.fixed, haccounts.properties]
    refine Diff.length_le_sumOf fun c hmem => ?_
    obtain ⟨location, bytes, hexpandable, -⟩ := hexpands c hmem
    exact List.length_pos_of_ne_nil hexpandable.found
  · rw [Report.summary_finished, haccounts.diff, haccounts.fixed]
    rfl
  · intro path hmem
    rw [Run.map_path_changes, List.mem_filter, and_iff_right hmem]
    refine ⟨fun hmode => ?_, fun hmode => ?_⟩
    · rw [hmode]
      exact Run.isSome_changeOf_dryRun_iff
    · rw [hmode, Run.isSome_changeOf_apply_iff, ← hmode]
      exact Run.replacedByExpansion_congr hshape (hdone path hmem)

end BackingField
