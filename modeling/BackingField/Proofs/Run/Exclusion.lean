import BackingField.Proofs.FileSystem.Hidden
import BackingField.Proofs.Run.Report
import BackingField.Proofs.Walk.Coverage
import BackingField.Text.Utf8.RoundTrip

/-!
# Directories that are left out do not matter

The walk asks only about places that are not hidden in a directory that is left out, and leads only
to such places (`Walk.visit_alike`).  So what is hidden has no influence on what the walk finds, on
what becomes of the candidates, or on the report, and it is never written to
(`excluded_directories_do_not_matter`).
-/

namespace BackingField

open FileSystem

/-- A path leads to the same place in both file systems, if anywhere, and the place is not hidden. -/
structure Seen (settings : Settings) (root : Location) (fs fs' : FileSystem) (path : Path) :
    Prop where
  located : fs.locate path true = fs'.locate path true
  visible : ∀ location, fs.locate path true = .ok location →
    ¬ fs.tree.Hidden settings root location

variable {settings : Settings} {root : Location} {fs fs' : FileSystem} {path : Path}

/-! ### One file or directory -/

namespace Seen

/-- Both paths lead nowhere, or to nodes that look the same. -/
theorem node_cases (h : Seen settings root fs fs' path) (halike : AlikeOutside settings root fs fs') :
    (∃ cause, fs.node path true = .error cause ∧ fs'.node path true = .error cause) ∨
      ∃ node node', fs.node path true = .ok node ∧ fs'.node path true = .ok node' ∧
        node.face = node'.face := by
  unfold FileSystem.node
  rw [← h.located]
  cases hlocate : fs.locate path true with
  | error cause => exact .inl ⟨cause, rfl, rfl⟩
  | ok location =>
    rcases halike.at?_cases (h.visible location hlocate) with ⟨hnone, hnone'⟩ |
      ⟨node, node', hnode, hnode', hface⟩
    · simp [bind, Except.bind, hnone, hnone']
    · simp [bind, Except.bind, hnode, hnode', hface]

theorem entries_eq (h : Seen settings root fs fs' path) (halike : AlikeOutside settings root fs fs') :
    fs.entries path = fs'.entries path := by
  rcases h.node_cases halike with ⟨cause, hnode, hnode'⟩ | ⟨node, node', hnode, hnode', hface⟩
  · simp only [entries, bind, Except.bind, hnode, hnode']
  · rcases Node.face_eq_cases hface with ⟨mode, content, rfl, rfl⟩ |
      ⟨mode, nodes, nodes', rfl, rfl, hkinds⟩ | ⟨target, rfl, rfl⟩
    · simp only [entries, bind, Except.bind, hnode, hnode']
    · rw [entries_of_node hnode, entries_of_node hnode', Node.kinds_listed hkinds]
    · simp only [entries, bind, Except.bind, hnode, hnode']

theorem read_eq (h : Seen settings root fs fs' path) (halike : AlikeOutside settings root fs fs') :
    fs.read path = fs'.read path := by
  unfold FileSystem.read
  rcases h.node_cases halike with ⟨cause, hnode, hnode'⟩ | ⟨node, node', hnode, hnode', hface⟩
  · simp only [bind, Except.bind, hnode, hnode']
  · simp only [bind, Except.bind, hnode, hnode']
    rcases Node.face_eq_cases hface with ⟨mode, content, rfl, rfl⟩ |
      ⟨mode, nodes, nodes', rfl, rfl, -⟩ | ⟨target, rfl, rfl⟩
    · rfl
    · rfl
    · rfl

/-- Writing comes to the same. -/
theorem overwrite_eq (h : Seen settings root fs fs' path)
    (halike : AlikeOutside settings root fs fs') (bytes : Bytes) :
    (fs.overwrite path bytes).2 = (fs'.overwrite path bytes).2 := by
  unfold overwrite
  rw [← h.located]
  cases hlocate : fs.locate path true with
  | error cause => rfl
  | ok location =>
    rcases halike.at?_cases (h.visible location hlocate) with ⟨hnone, hnone'⟩ |
      ⟨node, node', hnode, hnode', hface⟩
    · simp only [hnone, hnone']
    · simp only [hnode, hnode', halike.writeLimit]
      rcases Node.face_eq_cases hface with ⟨mode, content, rfl, rfl⟩ |
        ⟨mode, nodes, nodes', rfl, rfl, -⟩ | ⟨target, rfl, rfl⟩
      · simp only
        split
        · rfl
        · rfl
      · rfl
      · rfl

theorem process_eq (h : Seen settings root fs fs' path)
    (halike : AlikeOutside settings root fs fs') (mode : WriteMode) :
    (process fs path mode).2 = (process fs' path mode).2 :=
  process_snd_congr (h.read_eq halike) (h.overwrite_eq halike) mode

/-- The path of an entry is seen if the one of its directory is, unless the entry is a directory that
is left out. -/
theorem join (h : Seen settings root fs fs' path) (halike : AlikeOutside settings root fs fs')
    {location : Location} {mode : Mode} {nodes : List (Name × Node)} {name : Name} {child : Node}
    (hlocate : fs.locate path true = .ok location)
    (hnode : fs.tree.at? location = some (.directory mode nodes))
    (hchild : childNamed? nodes name = some child) (hproper : name.isProper = true)
    (hlink : child.kind ≠ .link) (hkept : child.kind = .directory → settings.prunes name = false) :
    Seen settings root fs fs' (path.join name) := by
  have hvisible := h.visible location hlocate
  have hlocate' : fs'.locate path true = .ok location := by rw [← h.located, hlocate]
  constructor
  · -- What decides where the path leads is the mode of the directory, which can be seen.
    rcases halike.at?_cases hvisible with ⟨hnone, -⟩ | ⟨node, node', hat, hnode', hface⟩
    · simp [hnode] at hnone
    obtain rfl : node = .directory mode nodes := by simpa [hnode] using hat.symm
    rcases Node.face_eq_cases hface with ⟨_, _, habsurd, -⟩ |
      ⟨mode', _, nodes', heq, rfl, hkinds⟩ | ⟨_, habsurd, -⟩
    · simp at habsurd
    · obtain ⟨rfl, rfl⟩ : mode = mode' ∧ nodes = _ := by simpa using heq
      have hkind := Node.kind_childNamed?_eq hkinds name
      rw [hchild] at hkind
      obtain ⟨child', hchild', hsame⟩ := Option.map_eq_some_iff.1 hkind.symm
      rw [locate_join hlocate hnode hchild hproper hlink,
        locate_join hlocate' hnode' hchild' hproper (by rwa [hsame])]
    · simp at habsurd
  · intro target htarget
    obtain rfl := eq_of_locate_join hlocate hnode hchild (Name.proper_of_isProper hproper) hlink
      htarget
    exact Node.not_hidden_concat hvisible (Node.at?_append_singleton hnode hchild) hkept

end Seen

/-! ### What is not written -/

/-- Files are not written where a directory is or in it, unless their paths lead there. -/
theorem FileSystem.at?_overwrite_of_directory {place : Location} {mode : Mode}
    {entries : List (Name × Node)} (hplace : fs.tree.at? place = some (.directory mode entries))
    (hpath : ∀ location, fs.locate path true = .ok location → ¬ place <+: location) (bytes : Bytes) :
    (fs.overwrite path bytes).1.tree.at? place = fs.tree.at? place := by
  rcases fs.overwrite_cases path bytes with ⟨cause, hfailed⟩ |
    ⟨location, mode', content, hlocate, hfile, hwritten⟩
  · rw [hfailed]
  · have habove : ¬ location <+: place := by
      rintro ⟨more, rfl⟩
      rw [Node.at?_append, hfile, Option.bind_some] at hplace
      cases more with
      | nil => simp [Node.at?] at hplace
      | cons name more => simp [Node.at?] at hplace
    rw [hwritten]
    exact Node.at?_putAt_of_apart hfile _ habove (hpath location hlocate)

theorem at?_process_of_directory {place : Location} {mode : Mode} {entries : List (Name × Node)}
    (hplace : fs.tree.at? place = some (.directory mode entries))
    (hpath : ∀ location, fs.locate path true = .ok location → ¬ place <+: location)
    (writeMode : WriteMode) : (process fs path writeMode).1.tree.at? place = fs.tree.at? place := by
  rcases process_fst_cases fs path writeMode with hsame | ⟨bytes, hwritten⟩
  · rw [hsame]
  · rw [hwritten]
    exact at?_overwrite_of_directory hplace hpath bytes

/-! ### The walk -/

namespace Walk

/-- The path of an item is seen, and whatever else a visit can ask about it is the same. -/
def Item.Seen (settings : Settings) (root : Location) (fs fs' : FileSystem) : Item → Prop
  | .root path => BackingField.Seen settings root fs fs' path ∧ fs.kind path = fs'.kind path ∧
      fs.kindBehindLinks path = fs'.kindBehindLinks path
  | .linkedRoot path => BackingField.Seen settings root fs fs' path ∧
      fs.kindBehindLinks path = fs'.kindBehindLinks path
  | .directory path => BackingField.Seen settings root fs fs' path
  | .file path => BackingField.Seen settings root fs fs' path

/-- A visit comes to the same in both file systems. -/
theorem visit_alike (halike : AlikeOutside settings root fs fs') {item : Item}
    (h : item.Seen settings root fs fs') :
    visit settings fs item = visit settings fs' item := by
  cases item with
  | root path =>
    obtain ⟨-, hkind, -⟩ := h
    rw [visit, visit, hkind]
  | linkedRoot path =>
    obtain ⟨-, hbehind⟩ := h
    rw [visit, visit, hbehind]
  | directory path =>
    have hseen : BackingField.Seen settings root fs fs' path := h
    rw [visit, visit, hseen.entries_eq halike]
  | file path => rfl

/-- And it leads on to items of which the same holds. -/
theorem seen_of_visit (halike : AlikeOutside settings root fs fs') {item next : Item}
    (h : item.Seen settings root fs fs') (hnext : next ∈ (visit settings fs item).items) :
    next.Seen settings root fs fs' := by
  cases item with
  | file path => simp [visit] at hnext
  | root path =>
    obtain ⟨hseen, -, hbehind⟩ := h
    rcases visit_root_items settings fs path with hitems | hitems | hitems | hitems
    · simp [hitems] at hnext
    · obtain rfl : next = .directory path := by simpa [hitems] using hnext
      exact hseen
    · obtain rfl : next = .linkedRoot path := by simpa [hitems] using hnext
      exact ⟨hseen, hbehind⟩
    · obtain rfl : next = .file path := by simpa [hitems] using hnext
      exact hseen
  | linkedRoot path =>
    obtain ⟨hseen, -⟩ := h
    rcases visit_linkedRoot_items settings fs path with hitems | hitems
    · simp [hitems] at hnext
    · obtain rfl : next = .directory path := by simpa [hitems] using hnext
      exact hseen
  | directory path =>
    have hseen : BackingField.Seen settings root fs fs' path := h
    obtain ⟨-, hempty | ⟨location, mode, nodes, hlocate, hnode, hread⟩⟩ :=
      visit_directory_cases settings fs path
    · simp [hempty] at hnext
    obtain ⟨name, child, hchild, hproper, ⟨hkind, -, rfl⟩ | ⟨hkind, hprunes, rfl⟩⟩ :=
      (mem_visit_directory_iff hlocate hnode hread).1 hnext
    · exact hseen.join halike hlocate hnode hchild hproper (by simp [hkind]) (by simp [hkind])
    · exact hseen.join halike hlocate hnode hchild hproper (by simp [hkind]) fun _ => hprunes

theorem Item.Seen.seen_path {item : Item} (h : item.Seen settings root fs fs') :
    BackingField.Seen settings root fs fs' item.path := by
  cases item with
  | root path => exact h.1
  | linkedRoot path => exact h.1
  | directory path => exact h
  | file path => exact h

/-- All candidates that are found from such items are seen. -/
theorem Finds.seen (halike : AlikeOutside settings root fs fs') {item : Item} {finding : Finding}
    (hfinds : Finds settings fs item finding) (h : item.Seen settings root fs fs') {path : Path}
    (hfinding : finding = .candidate path) : BackingField.Seen settings root fs fs' path := by
  induction hfinds with
  | here hfound =>
    rw [hfinding] at hfound
    obtain rfl : path = _ := (visit_of_finding hfound).1
    exact h.seen_path
  | later hnext _ ih => exact ih (seen_of_visit halike h hnext) hfinding

end Walk

theorem walk_alike (halike : AlikeOutside settings root fs fs')
    (h : (Walk.Item.root settings.root).Seen settings root fs fs') :
    walk settings fs = walk settings fs' := by
  rw [Walk.walk_eq_found, Walk.walk_eq_found]
  exact Walk.found_congr _ (fun item hitem => Walk.visit_alike halike hitem)
    (fun item hitem next hnext => Walk.seen_of_visit halike hitem hnext) (by simpa using h)

/-- A root that is not reached through anything hidden is seen. -/
theorem seen_root (halike : AlikeOutside settings root fs fs')
    (hroot : ∀ target, fs.locate settings.root true = .ok target → target = root)
    (hpasses : ∀ place,
      fs.tree.Passes (Path.origin fs.here settings.root) (Path.names settings.root) place →
        ¬ fs.tree.Hidden settings root place) :
    (Walk.Item.root settings.root).Seen settings root fs fs' := by
  have hkind (follow : Bool) : (fs.node settings.root follow).map Node.kind =
      (fs'.node settings.root follow).map Node.kind := by
    obtain ⟨hlocate, hsame⟩ := halike.locate_eq hpasses follow
    unfold FileSystem.node
    rw [← hlocate]
    cases hfound : fs.locate settings.root follow with
    | error cause => rfl
    | ok location =>
      have hat := hsame location hfound
      rw [SameKindAt] at hat
      cases hnode : fs.tree.at? location with
      | none =>
        have hnode' : fs'.tree.at? location = none := by simpa [hnode] using hat.symm
        simp [bind, Except.bind, hnode, hnode']
      | some node =>
        rw [hnode] at hat
        obtain ⟨node', hnode', hkind⟩ := Option.map_eq_some_iff.1 hat.symm
        simp [bind, Except.bind, hnode, hnode', Except.map, hkind]
  refine ⟨⟨(halike.locate_eq hpasses true).1, ?_⟩, hkind false, hkind true⟩
  intro location hlocate hhidden
  rw [hroot location hlocate] at hhidden
  exact Nat.lt_irrefl _ hhidden.length_lt

/-! ### The run -/

namespace Run

theorem reportAll_alike (options : Options) (halike : AlikeOutside settings root fs fs')
    (report : Report) {found : List Walk.Finding}
    (h : ∀ path ∈ Walk.candidates found, Seen settings root fs fs' path) :
    reportAll options fs report found = reportAll options fs' report found := by
  induction found generalizing report with
  | nil => rfl
  | cons finding found ih =>
    rw [reportAll_cons, reportAll_cons]
    cases finding with
    | unreadable path cause => exact ih _ h
    | candidate path =>
      obtain ⟨hfirst, hrest⟩ := List.forall_mem_cons.1 h
      simp only [handle, hfirst.process_eq halike]
      exact ih _ hrest

/-- A directory is left as it is by findings that do not lead into it. -/
theorem at?_handleAll_of_directory (options : Options) {place : Location} {mode : Mode}
    {entries : List (Name × Node)} (hplace : fs'.tree.at? place = some (.directory mode entries))
    (hshape : SameShape fs' fs) (report : Report) {found : List Walk.Finding}
    (h : ∀ path ∈ Walk.candidates found, ∀ location, fs.locate path true = .ok location →
      ¬ place <+: location) :
    (handleAll options fs' report found).1.tree.at? place = fs'.tree.at? place := by
  induction found generalizing fs' report with
  | nil => rfl
  | cons finding found ih =>
    rw [handleAll_cons]
    cases finding with
    | unreadable path cause => exact ih hplace hshape _ h
    | candidate path =>
      obtain ⟨hfirst, hrest⟩ := List.forall_mem_cons.1 h
      have hsame : (process fs' path options.mode).1.tree.at? place = fs'.tree.at? place := by
        refine at?_process_of_directory hplace (fun location hlocate => ?_) options.mode
        rw [hshape.locate_eq] at hlocate
        exact hfirst location hlocate
      simp only [handle]
      rw [ih (hsame.trans hplace) ((sameShape_process fs' path options.mode).trans hshape) _ hrest,
        hsame]

/-- A run leaves a directory that is left out as it is, if no candidate is hidden. -/
theorem at?_run_of_excluded (options : Options) {place : Location}
    (hplace : fs.tree.Excluded settings root place)
    (h : ∀ path ∈ Walk.candidates (walk settings fs), ∀ location,
      fs.locate path true = .ok location → ¬ fs.tree.Hidden settings root location) :
    (run settings options fs).1.tree.at? place = fs.tree.at? place := by
  have hcandidates : ∀ path ∈ Walk.candidates (walk settings fs), ∀ location,
      fs.locate path true = .ok location → ¬ place <+: location :=
    fun path hmem location hlocate hle => h path hmem location hlocate ⟨place, hplace, hle⟩
  obtain ⟨above, name, mode, entries, -, -, hat⟩ := hplace
  rw [run_eq_handleAll]
  exact at?_handleAll_of_directory options hat (SameShape.refl fs) {} hcandidates

end Run

/-- Directories below the root that are left out have no influence on a run, and are left as they
are.  Take two file systems that are alike but for such directories, with a root that is not reached
through one of them and leads to the given place if it leads anywhere.  The walk finds the same in
both, that is, the same paths and the same that could not be looked at.  A run comes to the same
report, with the same totals, output and events.  In both, everything in such a directory is
afterwards what it was before. -/
theorem excluded_directories_do_not_matter (settings : Settings) (root : Location)
    (fs fs' : FileSystem) (halike : AlikeOutside settings root fs fs')
    (hroot : ∀ target, fs.locate settings.root true = .ok target → target = root)
    (hpasses : ∀ place,
      fs.tree.Passes (Path.origin fs.here settings.root) (Path.names settings.root) place →
        ¬ fs.tree.Hidden settings root place) :
    walk settings fs = walk settings fs' ∧
      ∀ options, (run settings options fs).2 = (run settings options fs').2 ∧
        (∀ place, fs.tree.Excluded settings root place →
          (run settings options fs).1.tree.at? place = fs.tree.at? place) ∧
        ∀ place, fs'.tree.Excluded settings root place →
          (run settings options fs').1.tree.at? place = fs'.tree.at? place := by
  have hstart := seen_root halike hroot hpasses
  have hwalk := walk_alike halike hstart
  have hseen : ∀ path ∈ Walk.candidates (walk settings fs), Seen settings root fs fs' path :=
    fun path hmem => (mem_walk_iff.1 (Walk.mem_candidates.1 hmem)).seen halike hstart rfl
  refine ⟨hwalk, fun options => ⟨?_, fun place hplace => ?_, fun place hplace => ?_⟩⟩
  · rw [Run.snd_run, Run.snd_run, ← hwalk, Run.reportAll_alike options halike {} hseen]
  · exact Run.at?_run_of_excluded options hplace fun path hmem => (hseen path hmem).visible
  · refine Run.at?_run_of_excluded options hplace fun path hmem location hlocate hhidden => ?_
    rw [← hwalk] at hmem
    rw [← (hseen path hmem).located] at hlocate
    exact (hseen path hmem).visible location hlocate (halike.hidden_of_hidden hhidden)

/-- Settings that leave out `bin` in the directory one works in. -/
def withoutBin : Settings :=
  ⟨Name.self, ["bin".toList], ".cs".toList⟩

/-- A directory to work in, with a file to look for and a directory `bin` that holds anything. -/
def withBin (mode : Mode) (entries : List (Name × Node)) : FileSystem :=
  { tree := .directory Mode.newDirectory
      [(Utf8.encode "bin".toList, .directory mode entries),
        (Utf8.encode "A.cs".toList, .file Mode.newFile [])] }

theorem excluded_withBin (mode : Mode) (entries : List (Name × Node)) :
    (withBin mode entries).tree.Excluded withoutBin [] [Utf8.encode "bin".toList] := by
  refine ⟨[], _, mode, entries, rfl, ?_, rfl⟩
  simp [Settings.prunes, Utf8.decode?_encode, withoutBin, Settings.excludes]

/-- It does not matter whether `bin` is empty, or may not be read and holds a file that is not UTF-8. -/
theorem excluded_directories_do_not_matter_bin :
    let empty := withBin Mode.newDirectory []
    let closed := withBin ⟨false, false, false⟩
      [(Utf8.encode "B.cs".toList, .file Mode.newFile [0xFF])]
    walk withoutBin empty = walk withoutBin closed ∧
      ∀ options, (run withoutBin options empty).2 = (run withoutBin options closed).2 ∧
        (run withoutBin options closed).1.tree.at? [Utf8.encode "bin".toList] =
          closed.tree.at? [Utf8.encode "bin".toList] := by
  intro empty closed
  have hroot : ∀ target, empty.locate withoutBin.root true = .ok target → target = [] :=
    fun target htarget => (Except.ok.inj htarget).symm
  have hpasses : ∀ place,
      empty.tree.Passes (Path.origin empty.here withoutBin.root) (Path.names withoutBin.root) place →
        ¬ empty.tree.Hidden withoutBin [] place := by
    have hnames : Path.names withoutBin.root = [Name.self] := rfl
    rw [hnames]
    intro place hplace hhidden
    -- The one name is looked up where the path starts, and nothing is hidden there.
    cases hplace with
    | here => exact absurd hhidden.length_lt (Nat.lt_irrefl 0)
    | self hrest => cases hrest
    | directory hself => exact hself rfl
    | link hself => exact hself rfl
  obtain ⟨hwalk, hruns⟩ := excluded_directories_do_not_matter withoutBin [] empty closed
    (AlikeOutside.of_putAt (excluded_withBin Mode.newDirectory [])) hroot hpasses
  refine ⟨hwalk, fun options => ?_⟩
  obtain ⟨hreport, -, hkept⟩ := hruns options
  exact ⟨hreport, hkept _ (excluded_withBin _ _)⟩

end BackingField
