import BackingField.Proofs.Run.Report
import BackingField.Proofs.Text.Decoding

/-!
# The outcome of processing one file

What can be said of a file beforehand settles what becomes of it.  Whether it can be read as a text
(`FileSystem.ReadsAs`) and whether it takes the expanded text (`FileSystem.Rejects`) are read off the
tree, and from them follow the outcome (`Processing.Outcomes`) and what the tree is afterwards
(`Processing.Effects`), for every file, mode and limit (`process_spec`).
-/

namespace BackingField

open FileSystem

namespace FileSystem

/-- The path leads to a file of the given mode and contents. -/
structure LeadsTo (fs : FileSystem) (path : Path) (location : Location) (mode : Mode)
    (content : Bytes) : Prop where
  located : fs.locate path true = .ok location
  file : fs.tree.at? location = some (.file mode content)

/-- The path leads to a file that may be read, and it holds the UTF-8 form of the text. -/
def ReadsAs (fs : FileSystem) (path : Path) (text : Text) : Prop :=
  ∃ location mode, fs.LeadsTo path location mode (Utf8.encode text) ∧ mode.read = true

/-- The path leads to a file that does not take all of the bytes: it may not be written, or it cannot
grow that large. -/
def Rejects (fs : FileSystem) (path : Path) (bytes : Bytes) : Prop :=
  ∃ location mode content, fs.LeadsTo path location mode content ∧
    (mode.write = false ∨ ∃ limit, fs.writeLimit = some limit ∧ limit < bytes.length)

variable {fs : FileSystem} {path : Path} {location : Location} {mode : Mode}
  {content bytes : Bytes} {text : Text}

/-! ### Reading -/

theorem LeadsTo.contentAt? (h : fs.LeadsTo path location mode content) :
    fs.tree.contentAt? location = some content := by
  simp [Node.contentAt?, h.file]

theorem LeadsTo.read_eq (h : fs.LeadsTo path location mode content) :
    fs.read path = if mode.read then .ok content else .error .permissionDenied := by
  simp only [read, node, bind, Except.bind, h.located, h.file]

theorem read_eq_ok_iff : fs.read path = .ok bytes ↔
    ∃ location mode, fs.LeadsTo path location mode bytes ∧ mode.read = true := by
  constructor
  · intro h
    obtain ⟨location, hlocate, hcontent⟩ := exists_locate_of_read h
    unfold Node.contentAt? at hcontent
    split at hcontent
    · next mode content hfile =>
      obtain rfl : content = bytes := Option.some.inj hcontent
      have hleads : fs.LeadsTo path location mode content := ⟨hlocate, hfile⟩
      refine ⟨location, mode, hleads, ?_⟩
      rw [hleads.read_eq] at h
      cases hread : mode.read with
      | true => rfl
      | false => simp [hread] at h
    · simp at hcontent
  · rintro ⟨location, mode, hleads, hread⟩
    rw [hleads.read_eq, if_pos hread]

/-- A file reads as a text when it can be read and what was read decodes to the text. -/
theorem readsAs_iff : fs.ReadsAs path text ↔
    ∃ bytes, fs.read path = .ok bytes ∧ Utf8.decode? bytes = some text := by
  simp only [read_eq_ok_iff, Utf8.decode?_eq_some_iff]
  constructor
  · rintro ⟨location, mode, hleads⟩
    exact ⟨_, ⟨location, mode, hleads⟩, rfl⟩
  · rintro ⟨bytes, ⟨location, mode, hleads⟩, hencode⟩
    exact ⟨location, mode, hencode ▸ hleads⟩

theorem ReadsAs.unique {text' : Text} (h : fs.ReadsAs path text) (h' : fs.ReadsAs path text') :
    text = text' := by
  obtain ⟨bytes, hread, hdecode⟩ := readsAs_iff.1 h
  obtain ⟨bytes', hread', hdecode'⟩ := readsAs_iff.1 h'
  rw [hread] at hread'
  rw [← Except.ok.inj hread', hdecode] at hdecode'
  exact Option.some.inj hdecode'

theorem ReadsAs.expandable (h : fs.ReadsAs path text) (hfound : Occurrence.find text ≠ []) :
    ∃ location mode, fs.LeadsTo path location mode (Utf8.encode text) ∧
      Expandable fs path location (Utf8.encode text) text := by
  obtain ⟨location, mode, hleads, hread⟩ := h
  refine ⟨location, mode, hleads, hleads.located, ?_, Utf8.decode?_encode text, hfound⟩
  rw [hleads.read_eq, if_pos hread]

/-! ### Writing -/

/-- Writing stores what fits in a file that may be written. -/
theorem LeadsTo.overwrite_eq (h : fs.LeadsTo path location mode content) (bytes : Bytes) :
    fs.overwrite path bytes = if mode.write then
      ({ fs with
          tree := fs.tree.putAt location (.file mode (stored fs.writeLimit bytes).1)
          journal := location :: fs.journal }, (stored fs.writeLimit bytes).2)
    else (fs, .error .permissionDenied) := by
  simp only [overwrite, h.located, h.file]

theorem exists_error_stored_iff (limit : Option Nat) (bytes : Bytes) :
    (∃ cause, (stored limit bytes).2 = .error cause) ↔ ∃ n, limit = some n ∧ n < bytes.length := by
  cases limit with
  | none => simp [stored]
  | some n => by_cases hlt : n < bytes.length <;> simp [stored, hlt]

/-- Writing fails exactly where the bytes are rejected. -/
theorem LeadsTo.exists_error_overwrite_iff (h : fs.LeadsTo path location mode content)
    (bytes : Bytes) : (∃ cause, (fs.overwrite path bytes).2 = .error cause) ↔
      fs.Rejects path bytes := by
  have hrejects : fs.Rejects path bytes ↔
      mode.write = false ∨ ∃ limit, fs.writeLimit = some limit ∧ limit < bytes.length := by
    constructor
    · rintro ⟨location', mode', content', hleads, hcause⟩
      obtain rfl : location' = location := Except.ok.inj (hleads.located.symm.trans h.located)
      have hfile := hleads.file
      rw [h.file] at hfile
      obtain ⟨rfl, -⟩ : mode = mode' ∧ content = content' := by simpa using hfile
      exact hcause
    · exact fun hcause => ⟨location, mode, content, h, hcause⟩
  rw [hrejects, h.overwrite_eq]
  cases hwrite : mode.write with
  | false => simp
  | true => simpa using exists_error_stored_iff fs.writeLimit bytes

end FileSystem

namespace Processing

/-- The outcome of processing a file, by what can be read and written. -/
structure Outcomes (fs : FileSystem) (path : Path) (mode : WriteMode)
    (outcome : Except FileError Outcome) : Prop where
  /-- There is a read error exactly where the path leads to no file that can be read as a text. -/
  read : (∃ cause, outcome = .error (.read path cause)) ↔ ∀ text, ¬ fs.ReadsAs path text
  /-- There is a write error exactly where a text with a property was read, is to be written, and its
  expanded text is rejected. -/
  write : (∃ cause, outcome = .error (.write path cause)) ↔ mode = .apply ∧
    ∃ text e, fs.ReadsAs path text ∧ Occurrence.find text ≠ [] ∧ expand text = .ok e ∧
      fs.Rejects path (Utf8.encode e.text)
  /-- Otherwise the outcome has the text that was read, the number of its properties, and the expanded
  text if there are any. -/
  done : (∀ cause, outcome ≠ .error (.read path cause)) →
    (∀ cause, outcome ≠ .error (.write path cause)) →
    ∃ text e, fs.ReadsAs path text ∧ expand text = .ok e ∧
      outcome = .ok ⟨(Occurrence.find text).length, text,
        if 0 < (Occurrence.find text).length then some e.text else none⟩

/-- What processing a file does to the tree. -/
structure Effects (fs : FileSystem) (path : Path) (mode : WriteMode) (after : FileSystem)
    (outcome : Except FileError Outcome) : Prop where
  /-- A file that cannot be read changes nothing. -/
  unread : (∃ cause, outcome = .error (.read path cause)) → after = fs
  /-- Nothing is changed when nothing is to be written. -/
  dryRun : mode = .dryRun → after = fs
  /-- A text without properties changes nothing. -/
  plain : ∀ text, fs.ReadsAs path text → Occurrence.find text = [] → after = fs
  /-- No node is new, gone, or of another kind, mode or target. -/
  shape : SameShape after fs
  /-- No contents are new, except for those of the file that the path leads to. -/
  others : ∀ location, fs.locate path true ≠ .ok location →
    after.tree.contentAt? location = fs.tree.contentAt? location
  /-- When writing fails, the file holds its old contents or a beginning of the new ones. -/
  unwritten : (∃ cause, outcome = .error (.write path cause)) →
    ∃ location text e, fs.locate path true = .ok location ∧ fs.ReadsAs path text ∧
      expand text = .ok e ∧
      (after.tree.contentAt? location = some (Utf8.encode text) ∨
        ∃ kept, kept <+: Utf8.encode e.text ∧ after.tree.contentAt? location = some kept)
  /-- When the expanded text was written, the file holds all of it. -/
  written : mode = .apply → ∀ done text, outcome = .ok done → done.after = some text →
    ∃ location, fs.locate path true = .ok location ∧
      after.tree.contentAt? location = some (Utf8.encode text)

end Processing

section Process

variable {fs : FileSystem} {path : Path} {text : Text} {e : Expansion}

/-! ### The three things that can be done with a file -/

/-- A file that cannot be read as a text is left alone, with an error. -/
theorem process_of_not_readsAs (h : ∀ text, ¬ fs.ReadsAs path text) (mode : WriteMode) :
    ∃ cause, process fs path mode = (fs, Processing.failed (.read path cause)) := by
  cases hread : fs.read path with
  | error cause => exact ⟨cause, by simp only [process, hread, Processing.plan]⟩
  | ok bytes =>
    have hdecode : Utf8.decode? bytes = none := by
      refine Option.eq_none_iff_forall_ne_some.2 fun text hdecode => h text ?_
      exact readsAs_iff.2 ⟨bytes, hread, hdecode⟩
    exact ⟨.notUtf8, by simp only [process, hread, Processing.plan, hdecode]⟩

/-- A text without properties is left alone. -/
theorem process_of_find_eq_nil (h : fs.ReadsAs path text) (hfind : Occurrence.find text = [])
    (mode : WriteMode) : process fs path mode = (fs, Processing.left path text) := by
  obtain ⟨bytes, hread, hdecode⟩ := readsAs_iff.1 h
  obtain ⟨result, -, hexpand⟩ := expand_eq_ok text
  simp [process, hread, Processing.plan, hdecode, hexpand, hfind]

/-- A text with properties is replaced, and that fails where it is to be written and rejected. -/
theorem exists_written_of_readsAs (h : fs.ReadsAs path text) (hfound : Occurrence.find text ≠ [])
    (hexpand : expand text = .ok e) (mode : WriteMode) :
    ∃ written, (process fs path mode).2 = Processing.replaced path mode text e written ∧
      ((∃ cause, written = .error cause) ↔
        mode = .apply ∧ fs.Rejects path (Utf8.encode e.text)) := by
  obtain ⟨location, fileMode, hleads, hexpandable⟩ := h.expandable hfound
  cases mode with
  | dryRun => exact ⟨.ok (), by simp only [process, hexpandable.plan_eq hexpand], by simp⟩
  | apply =>
    refine ⟨(fs.overwrite path (Utf8.encode e.text)).2, ?_, ?_⟩
    · rw [hexpandable.process_eq hexpand]
    · rw [hleads.exists_error_overwrite_iff, and_iff_right rfl]

theorem fst_process_dryRun (fs : FileSystem) (path : Path) : (process fs path .dryRun).1 = fs := by
  unfold process
  cases Processing.plan path (fs.read path) <;> rfl

/-! ### Outcome and effect -/

theorem outcomes_of_not_readsAs (h : ∀ text, ¬ fs.ReadsAs path text) (mode : WriteMode)
    (cause : IoError) : Processing.Outcomes fs path mode (.error (.read path cause)) where
  read := ⟨fun _ => h, fun _ => ⟨cause, rfl⟩⟩
  write := by
    constructor
    · rintro ⟨cause', hcause⟩
      simp at hcause
    · rintro ⟨-, text, e, hreads, -⟩
      exact absurd hreads (h text)
  done := fun hread => absurd rfl (hread cause)

theorem outcomes_of_find_eq_nil (h : fs.ReadsAs path text) (hfind : Occurrence.find text = [])
    (mode : WriteMode) : Processing.Outcomes fs path mode (.ok ⟨0, text, none⟩) where
  read := by
    constructor
    · rintro ⟨cause, hcause⟩
      simp at hcause
    · exact fun hnone => absurd h (hnone text)
  write := by
    constructor
    · rintro ⟨cause, hcause⟩
      simp at hcause
    · rintro ⟨-, text', e, hreads, hfound, -⟩
      rw [hreads.unique h] at hfound
      exact absurd hfind hfound
  done := by
    intro _ _
    obtain ⟨result, -, hexpand⟩ := expand_eq_ok text
    exact ⟨text, _, h, hexpand, by simp [hfind]⟩

theorem outcomes_of_replaced (h : fs.ReadsAs path text) (hfound : Occurrence.find text ≠ [])
    (hexpand : expand text = .ok e) {mode : WriteMode} {written : Except IoError Unit}
    (hwritten : (∃ cause, written = .error cause) ↔
      mode = .apply ∧ fs.Rejects path (Utf8.encode e.text)) :
    Processing.Outcomes fs path mode
      (Processing.replaced path mode text e written).outcome where
  read := by
    constructor
    · rintro ⟨cause, hcause⟩
      cases written <;> simp [Processing.replaced, Processing.failed] at hcause
    · exact fun hnone => absurd h (hnone text)
  write := by
    have hfailed : (∃ cause, (Processing.replaced path mode text e written).outcome =
        .error (.write path cause)) ↔ ∃ cause, written = .error cause := by
      cases written <;> simp [Processing.replaced, Processing.failed]
    rw [hfailed, hwritten]
    constructor
    · rintro ⟨hmode, hrejects⟩
      exact ⟨hmode, text, e, h, hfound, hexpand, hrejects⟩
    · -- There is only one text to read and one to write.
      rintro ⟨hmode, text', e', hreads, -, hexpand', hrejects⟩
      rw [hreads.unique h, hexpand] at hexpand'
      rw [← Except.ok.inj hexpand'] at hrejects
      exact ⟨hmode, hrejects⟩
  done := by
    intro _ hwrite
    obtain ⟨result, -, hresult⟩ := expand_eq_ok text
    rw [hexpand] at hresult
    obtain rfl := Except.ok.inj hresult
    refine ⟨text, _, h, hexpand, ?_⟩
    cases written with
    | error cause => exact absurd rfl (hwrite cause)
    | ok _ => simp [Processing.replaced, hfound]

theorem outcomes_process (fs : FileSystem) (path : Path) (mode : WriteMode) :
    Processing.Outcomes fs path mode (process fs path mode).2.outcome := by
  by_cases hreads : ∃ text, fs.ReadsAs path text
  · obtain ⟨text, htext⟩ := hreads
    by_cases hfind : Occurrence.find text = []
    · rw [process_of_find_eq_nil htext hfind]
      exact outcomes_of_find_eq_nil htext hfind mode
    · obtain ⟨result, -, hexpand⟩ := expand_eq_ok text
      obtain ⟨written, hprocess, hwritten⟩ := exists_written_of_readsAs htext hfind hexpand mode
      rw [hprocess]
      exact outcomes_of_replaced htext hfind hexpand hwritten
  · have hnone : ∀ text, ¬ fs.ReadsAs path text := fun text htext => hreads ⟨text, htext⟩
    obtain ⟨cause, hprocess⟩ := process_of_not_readsAs hnone mode
    rw [hprocess]
    exact outcomes_of_not_readsAs hnone mode cause

theorem effects_process (fs : FileSystem) (path : Path) (mode : WriteMode) :
    Processing.Effects fs path mode (process fs path mode).1 (process fs path mode).2.outcome where
  unread := by
    intro hread
    obtain ⟨cause, hprocess⟩ := process_of_not_readsAs ((outcomes_process fs path mode).read.1 hread)
      mode
    rw [hprocess]
  dryRun := by
    rintro rfl
    exact fst_process_dryRun fs path
  plain := fun text hreads hfind => by rw [process_of_find_eq_nil hreads hfind]
  shape := sameShape_process fs path mode
  others := fun location hne => contentAt?_process_of_ne mode hne
  unwritten := by
    intro hwrite
    obtain ⟨rfl, text, e, hreads, hfound, hexpand, -⟩ := (outcomes_process fs path mode).write.1 hwrite
    obtain ⟨location, fileMode, hleads, hexpandable⟩ := hreads.expandable hfound
    refine ⟨location, text, e, hleads.located, hreads, hexpand, ?_⟩
    rw [hexpandable.process_eq hexpand]
    rcases contentAt?_overwrite (Utf8.encode e.text) hleads.located with ⟨-, hnew⟩ | ⟨_, -, hold⟩ |
      ⟨n, -, -, hpart⟩
    · exact .inr ⟨_, List.prefix_refl _, hnew⟩
    · exact .inl (hold.trans hleads.contentAt?)
    · exact .inr ⟨_, List.take_prefix n _, hpart⟩
  written := by
    rintro rfl done new hdone hnew
    -- The outcome with a new text is the one of a text with properties that was written.
    obtain ⟨text, e, hreads, hexpand, houtcome⟩ := (outcomes_process fs path .apply).done
      (by simp [hdone]) (by simp [hdone])
    rw [hdone] at houtcome
    rw [Except.ok.inj houtcome] at hnew
    obtain ⟨hpos, hnew⟩ : 0 < (Occurrence.find text).length ∧ e.text = new := by simpa using hnew
    obtain ⟨location, fileMode, hleads, hexpandable⟩ :=
      hreads.expandable (List.length_pos_iff.1 hpos)
    refine ⟨location, hleads.located, ?_⟩
    rw [hexpandable.process_eq hexpand] at hdone ⊢
    rw [← hnew]
    rcases contentAt?_overwrite (Utf8.encode e.text) hleads.located with ⟨-, hcontent⟩ |
      ⟨cause, hfailed, -⟩ | ⟨n, -, hfailed, -⟩
    · exact hcontent
    · simp [hfailed, Processing.replaced, Processing.failed] at hdone
    · simp [hfailed, Processing.replaced, Processing.failed] at hdone

/-- Processing a file comes to a read error, a write error or a result, as the tree, the mode and the
limit have it, and nothing but the contents of that file can change. -/
theorem process_spec (fs : FileSystem) (path : Path) (mode : WriteMode) :
    ∃ after result, process fs path mode = (after, result) ∧
      Processing.Outcomes fs path mode result.outcome ∧
      Processing.Effects fs path mode after result.outcome :=
  ⟨_, _, rfl, outcomes_process fs path mode, effects_process fs path mode⟩

end Process

end BackingField
