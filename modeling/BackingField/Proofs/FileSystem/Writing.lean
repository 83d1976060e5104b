import BackingField.Proofs.FileSystem.Shape

/-!
# Reading and writing one file

Writing to a file keeps the shape of the tree and the contents of every other file.  What reading
and writing come to depends on the shape of the tree and on the contents of the one file.
-/

namespace BackingField
namespace FileSystem

variable {fs fs' : FileSystem} {path : Path} {location : Location}

/-- What can be read stands at the location that the path leads to. -/
theorem exists_locate_of_read {bytes : Bytes} (h : fs.read path = .ok bytes) :
    ∃ location, fs.locate path true = .ok location ∧ fs.tree.contentAt? location = some bytes := by
  unfold read node at h
  cases hlocate : fs.locate path true with
  | error cause => simp [bind, Except.bind, hlocate] at h
  | ok location =>
    cases hnode : fs.tree.at? location with
    | none => simp [bind, Except.bind, hlocate, hnode] at h
    | some node =>
      cases node with
      | directory mode entries => simp [bind, Except.bind, hlocate, hnode] at h
      | link target => simp [bind, Except.bind, hlocate, hnode] at h
      | file mode content =>
        simp only [bind, Except.bind, hlocate, hnode] at h
        split at h
        · obtain rfl : content = bytes := by simpa using h
          exact ⟨location, rfl, by simp [Node.contentAt?, hnode]⟩
        · simp at h

/-- Writing either fails and changes nothing, or it stores what fits in a file that is there. -/
theorem overwrite_cases (fs : FileSystem) (path : Path) (bytes : Bytes) :
    (∃ cause, fs.overwrite path bytes = (fs, .error cause)) ∨
      ∃ location mode content, fs.locate path true = .ok location ∧
        fs.tree.at? location = some (.file mode content) ∧ fs.overwrite path bytes =
          ({ fs with
              tree := fs.tree.putAt location (.file mode (stored fs.writeLimit bytes).1)
              journal := location :: fs.journal }, (stored fs.writeLimit bytes).2) := by
  unfold overwrite
  cases hlocate : fs.locate path true with
  | error cause => exact .inl ⟨cause, rfl⟩
  | ok location =>
    cases hnode : fs.tree.at? location with
    | none => exact .inl ⟨.noSuchEntry, by simp only [hnode]⟩
    | some node =>
      cases node with
      | directory mode entries => exact .inl ⟨.isADirectory, by simp only [hnode]⟩
      | link target => exact .inl ⟨.noSuchEntry, by simp only [hnode]⟩
      | file mode content =>
        cases hwrite : mode.write with
        | false => exact .inl ⟨.permissionDenied, by simp [hnode, hwrite]⟩
        | true => exact .inr ⟨location, mode, content, rfl, hnode, by simp [hnode, hwrite]⟩

theorem sameShape_overwrite (fs : FileSystem) (path : Path) (bytes : Bytes) :
    SameShape (fs.overwrite path bytes).1 fs := by
  rcases fs.overwrite_cases path bytes with ⟨cause, hfailed⟩ |
    ⟨location, mode, content, -, hfile, hwritten⟩
  · rw [hfailed]
    exact SameShape.refl fs
  · rw [hwritten]
    exact ⟨Node.skeleton_putAt hfile _, rfl, rfl⟩

/-- Only the file that the path leads to is written. -/
theorem contentAt?_overwrite_of_ne (bytes : Bytes) (hne : fs.locate path true ≠ .ok location) :
    (fs.overwrite path bytes).1.tree.contentAt? location = fs.tree.contentAt? location := by
  rcases fs.overwrite_cases path bytes with ⟨cause, hfailed⟩ |
    ⟨location', mode, content, hlocate, hfile, hwritten⟩
  · rw [hfailed]
  · have hother : location ≠ location' := by
      rintro rfl
      exact hne hlocate
    rw [hwritten, Node.contentAt?_putAt hfile, if_neg hother]

/-- What is stored is all of the bytes, or too short a beginning of them. -/
theorem stored_cases (limit : Option Nat) (bytes : Bytes) :
    stored limit bytes = (bytes, .ok ()) ∨
      ∃ n, n < bytes.length ∧ stored limit bytes = (bytes.take n, .error .fileTooLarge) := by
  cases limit with
  | none => exact .inl rfl
  | some n =>
    by_cases h : n < bytes.length
    · exact .inr ⟨n, h, by simp [stored, h]⟩
    · exact .inl (by simp [stored, h])

/-- The file that was written holds the new contents when that went well.  When it failed, the file
holds its old contents, or a beginning of the new ones because they were too long. -/
theorem contentAt?_overwrite (bytes : Bytes) (hlocate : fs.locate path true = .ok location) :
    ((fs.overwrite path bytes).2 = .ok () ∧
        (fs.overwrite path bytes).1.tree.contentAt? location = some bytes) ∨
      (∃ cause, (fs.overwrite path bytes).2 = .error cause ∧
        (fs.overwrite path bytes).1.tree.contentAt? location = fs.tree.contentAt? location) ∨
      ∃ n, n < bytes.length ∧ (fs.overwrite path bytes).2 = .error .fileTooLarge ∧
        (fs.overwrite path bytes).1.tree.contentAt? location = some (bytes.take n) := by
  rcases fs.overwrite_cases path bytes with ⟨cause, hfailed⟩ |
    ⟨location', mode, content, hlocate', hfile, hwritten⟩
  · rw [hfailed]
    exact .inr (.inl ⟨cause, rfl, rfl⟩)
  · obtain rfl : location = location' := by
      rw [hlocate] at hlocate'
      simpa using hlocate'
    rw [hwritten]
    -- The file was there and may be written: what it holds now is what was stored.
    simp only [Node.contentAt?_putAt hfile, if_true]
    rcases stored_cases fs.writeLimit bytes with hall | ⟨n, hlt, hpart⟩
    · rw [hall]
      exact .inl ⟨rfl, rfl⟩
    · rw [hpart]
      exact .inr (.inr ⟨n, hlt, rfl, rfl⟩)

/-! ### Files that may not be written -/

/-- The path does not lead to a file that may be written. -/
def Refuses (fs : FileSystem) (path : Path) : Prop :=
  ∀ location mode content, fs.locate path true = .ok location →
    fs.tree.at? location = some (.file mode content) → mode.write = false

/-- Nothing is opened where writing is refused. -/
theorem Refuses.overwrite (h : fs.Refuses path) (bytes : Bytes) :
    ∃ cause, fs.overwrite path bytes = (fs, .error cause) := by
  unfold FileSystem.overwrite
  cases hlocate : fs.locate path true with
  | error cause => exact ⟨cause, rfl⟩
  | ok location =>
    cases hnode : fs.tree.at? location with
    | none => exact ⟨.noSuchEntry, by simp only [hnode]⟩
    | some node =>
      cases node with
      | directory mode entries => exact ⟨.isADirectory, by simp only [hnode]⟩
      | link target => exact ⟨.noSuchEntry, by simp only [hnode]⟩
      | file mode content =>
        have hwrite := h location mode content hlocate hnode
        exact ⟨.permissionDenied, by simp [hnode, hwrite]⟩

theorem stored_isPrefix (limit : Option Nat) (bytes : Bytes) : (stored limit bytes).1 <+: bytes := by
  rcases stored_cases limit bytes with hall | ⟨n, -, hpart⟩
  · exact ⟨[], by rw [hall, List.append_nil]⟩
  · rw [hpart]
    exact List.take_prefix n bytes

/-- Writing is refused, or the file holds a beginning of what was written. -/
theorem refuses_or_isPrefix (bytes : Bytes) (hlocate : fs.locate path true = .ok location) :
    fs.Refuses path ∨ ∃ kept, kept <+: bytes ∧
      (fs.overwrite path bytes).1.tree.contentAt? location = some kept := by
  by_cases hwritable : ∃ mode content,
      fs.tree.at? location = some (.file mode content) ∧ mode.write = true
  · obtain ⟨mode, content, hfile, hwrite⟩ := hwritable
    refine .inr ⟨_, stored_isPrefix fs.writeLimit bytes, ?_⟩
    simp [FileSystem.overwrite, hlocate, hfile, hwrite, Node.contentAt?_putAt hfile]
  · refine .inl fun location' mode content hlocate' hfile => ?_
    obtain rfl : location = location' := by
      rw [hlocate] at hlocate'
      simpa using hlocate'
    cases hwrite : mode.write with
    | false => rfl
    | true => exact absurd ⟨mode, content, hfile, hwrite⟩ hwritable

theorem SameShape.refuses (h : SameShape fs fs') (hrefuses : fs.Refuses path) :
    fs'.Refuses path := by
  intro location mode content hlocate hfile
  rw [← h.locate_eq] at hlocate
  rcases h.at?_cases location with ⟨-, hnone⟩ | ⟨node, node', hnode, hnode', heq⟩
  · rw [hfile] at hnone
    simp at hnone
  · obtain rfl : node' = .file mode content := by
      rw [hfile] at hnode'
      simpa using hnode'.symm
    rcases Node.skeleton_eq_cases heq with ⟨mode', content', content'', rfl, hsame⟩ |
      ⟨mode', entries, entries', -, hsame, -⟩ | ⟨target, -, hsame⟩
    · obtain ⟨rfl, -⟩ : mode = mode' ∧ content = content'' := by simpa using hsame
      exact hrefuses location mode content' hlocate hnode
    · simp at hsame
    · simp at hsame

/-! ### Two file systems that agree on a file -/

/-- The two file systems have the same shape, and the path leads to the same contents in both. -/
structure AgreeOn (fs fs' : FileSystem) (path : Path) : Prop where
  shape : SameShape fs fs'
  content : ∀ location, fs.locate path true = .ok location →
    fs.tree.contentAt? location = fs'.tree.contentAt? location

theorem AgreeOn.refl (fs : FileSystem) (path : Path) : AgreeOn fs fs path :=
  ⟨SameShape.refl fs, fun _ _ => rfl⟩

theorem AgreeOn.read_eq (h : AgreeOn fs fs' path) : fs.read path = fs'.read path := by
  unfold read node
  rw [← h.shape.locate_eq path true]
  cases hlocate : fs.locate path true with
  | error cause => rfl
  | ok location =>
    have hcontent := h.content location hlocate
    rcases h.shape.at?_cases location with ⟨hnone, hnone'⟩ | ⟨node, node', hnode, hnode', heq⟩
    · simp only [bind, Except.bind, hnone, hnone']
    · unfold Node.contentAt? at hcontent
      rw [hnode, hnode'] at hcontent
      simp only [bind, Except.bind, hnode, hnode']
      rcases Node.skeleton_eq_cases heq with ⟨mode, content, content', rfl, rfl⟩ |
        ⟨mode, entries, entries', rfl, rfl, -⟩ | ⟨target, rfl, rfl⟩
      · obtain rfl : content = content' := by simpa using hcontent
        rfl
      · rfl
      · rfl

/-- Writing comes to the same in both. -/
theorem AgreeOn.overwrite (h : AgreeOn fs fs' path) (bytes : Bytes) :
    (fs.overwrite path bytes).2 = (fs'.overwrite path bytes).2 ∧
      AgreeOn (fs.overwrite path bytes).1 (fs'.overwrite path bytes).1 path := by
  have hshape : SameShape (fs.overwrite path bytes).1 (fs'.overwrite path bytes).1 :=
    (sameShape_overwrite fs path bytes).trans
      (h.shape.trans (sameShape_overwrite fs' path bytes).symm)
  -- The shape of both stays the same, so only results and contents are left to compare.
  suffices hboth : (fs.overwrite path bytes).2 = (fs'.overwrite path bytes).2 ∧
      ∀ location, fs.locate path true = .ok location →
        (fs.overwrite path bytes).1.tree.contentAt? location =
          (fs'.overwrite path bytes).1.tree.contentAt? location by
    refine ⟨hboth.1, hshape, fun location hlocate => hboth.2 location ?_⟩
    rw [← (sameShape_overwrite fs path bytes).locate_eq]
    exact hlocate
  unfold FileSystem.overwrite
  rw [← h.shape.locate_eq path true, ← h.shape.writeLimit]
  cases hlocate : fs.locate path true with
  | error cause => exact ⟨rfl, fun location hnot => by simp at hnot⟩
  | ok location =>
    have hcontent := h.content location hlocate
    rcases h.shape.at?_cases location with ⟨hnone, hnone'⟩ | ⟨node, node', hnode, hnode', heq⟩
    · simp [hnone, hnone', hcontent]
    · simp only [hnode, hnode']
      rcases Node.skeleton_eq_cases heq with ⟨mode, content, content', rfl, rfl⟩ |
        ⟨mode, entries, entries', rfl, rfl, -⟩ | ⟨target, rfl, rfl⟩
      · cases hwrite : mode.write with
        | false => simp [hwrite, hcontent]
        | true => simp [hwrite, Node.contentAt?_putAt hnode, Node.contentAt?_putAt hnode']
      · simp [hcontent]
      · simp [hcontent]

end FileSystem
end BackingField
