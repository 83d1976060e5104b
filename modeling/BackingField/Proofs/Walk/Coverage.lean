import BackingField.Proofs.Walk.Completion

/-!
# The walk finds exactly the right files

Below its root, the walk goes along routes: names of directories that are not left out, each of which
can be opened for listing (`Walk.Route`).  A visit of a directory takes one name off a route, so the
candidates are the files that are looked for at the ends of routes (`Walk.finds_directory_iff`), each
of them once (`candidates_walk_exact`).
-/

namespace BackingField

/-- Path of what names lead to below a directory. -/
def Path.below (path : Path) (names : List Name) : Path :=
  names.foldl Path.join path

namespace Walk

/-- The walk goes through these directories, which lie in one another, the first of them in the
directory at the given path and location.  None of them is left out.  That directory and each of them
can be opened for listing: it is a directory and no link, it may be read, what lies above it may be
searched, and its path is one that the system takes. -/
structure Route (settings : Settings) (fs : FileSystem) (path : Path) (location : Location)
    (directories : List Name) : Prop where
  kept : ∀ name ∈ directories, name.isProper = true ∧ settings.prunes name = false
  opened : ∀ above, above <+: directories → ∃ mode entries,
    fs.tree.at? (location ++ above) = some (.directory mode entries) ∧ mode.read = true ∧
      (above ≠ directories → mode.search = true) ∧ (path.below above).length < pathLimit

variable {settings : Settings} {fs : FileSystem} {path : Path} {location : Location}

theorem Route.first {directories : List Name}
    (h : Route settings fs path location directories) : ∃ mode entries,
      fs.tree.at? location = some (.directory mode entries) ∧ mode.read = true ∧
        (directories ≠ [] → mode.search = true) ∧ path.length < pathLimit := by
  obtain ⟨mode, entries, hnode, hread, hsearch, hlength⟩ := h.opened [] List.nil_prefix
  exact ⟨mode, entries, by simpa using hnode, hread, fun hne => hsearch hne.symm, hlength⟩

theorem route_nil {mode : Mode} {entries : List (Name × Node)}
    (hnode : fs.tree.at? location = some (.directory mode entries)) (hread : mode.read = true)
    (hlength : path.length < pathLimit) : Route settings fs path location [] := by
  refine ⟨by simp, fun above habove => ?_⟩
  obtain rfl := List.prefix_nil.1 habove
  exact ⟨mode, entries, by simpa using hnode, hread, by simp, hlength⟩

/-- A route goes from a directory that may be searched into one of its entries. -/
theorem route_cons_iff {name : Name} {directories : List Name} {mode : Mode}
    {entries : List (Name × Node)}
    (hnode : fs.tree.at? location = some (.directory mode entries)) :
    Route settings fs path location (name :: directories) ↔
      mode.read = true ∧ mode.search = true ∧ path.length < pathLimit ∧
      name.isProper = true ∧ settings.prunes name = false ∧
      Route settings fs (path.join name) (location ++ [name]) directories := by
  constructor
  · intro h
    obtain ⟨⟨hproper, hprunes⟩, hrest⟩ := List.forall_mem_cons.1 h.kept
    obtain ⟨mode', entries', hnode', hread, hsearch, hlength⟩ := h.first
    obtain ⟨rfl, rfl⟩ : mode = mode' ∧ entries = entries' := by simpa [hnode] using hnode'
    refine ⟨hread, hsearch (by simp), hlength, hproper, hprunes, hrest, fun above habove => ?_⟩
    obtain ⟨mode, entries, hnode, hread, hsearch, hlength⟩ :=
      h.opened (name :: above) (List.cons_prefix_cons.2 ⟨rfl, habove⟩)
    exact ⟨mode, entries, by simpa using hnode, hread, fun hne => hsearch (by simpa using hne),
      hlength⟩
  · rintro ⟨hread, hsearch, hlength, hproper, hprunes, hroute⟩
    refine ⟨List.forall_mem_cons.2 ⟨⟨hproper, hprunes⟩, hroute.kept⟩, fun above habove => ?_⟩
    cases above with
    | nil => exact ⟨mode, entries, by simpa using hnode, hread, fun _ => hsearch, hlength⟩
    | cons name' above =>
      obtain ⟨rfl, hlater⟩ := List.cons_prefix_cons.1 habove
      obtain ⟨mode, entries, hnode, hread, hsearch, hlength⟩ := hroute.opened above hlater
      exact ⟨mode, entries, by simpa using hnode, hread, fun hne => hsearch (by simpa using hne),
        hlength⟩

/-! ### From a directory on -/

/-- A visit of a directory finds no candidate by itself, and leads on only if the directory can be
listed. -/
theorem visit_directory_cases (settings : Settings) (fs : FileSystem) (path : Path) :
    (∀ file, (visit settings fs (.directory path)).finding ≠ some (.candidate file)) ∧
      ((visit settings fs (.directory path)).items = [] ∨
        ∃ location mode nodes, fs.locate path true = .ok location ∧
          fs.tree.at? location = some (.directory mode nodes) ∧ mode.read = true) := by
  rw [visit]
  cases hentries : fs.entries path with
  | error cause => exact ⟨by simp [visitDirectory], .inl rfl⟩
  | ok entries =>
    obtain ⟨location, mode, nodes, hlocate, hnode, hread, -⟩ :=
      FileSystem.entries_eq_ok_iff.1 hentries
    exact ⟨by simp [visitDirectory], .inr ⟨location, mode, nodes, hlocate, hnode, hread⟩⟩

/-- It leads on to the files that are looked for and to the directories that are not left out. -/
theorem mem_visit_directory_iff {mode : Mode} {nodes : List (Name × Node)}
    (hlocate : fs.locate path true = .ok location)
    (hnode : fs.tree.at? location = some (.directory mode nodes)) (hread : mode.read = true)
    {next : Item} :
    next ∈ (visit settings fs (.directory path)).items ↔ ∃ name child,
      childNamed? nodes name = some child ∧ name.isProper = true ∧
        (child.kind = .file ∧ settings.accepts name = true ∧ Item.file (path.join name) = next ∨
          child.kind = .directory ∧ settings.prunes name = false ∧
            Item.directory (path.join name) = next) := by
  have hitem (kind : Kind) (name : Name) : itemOf settings path (name, kind) = some next ↔
      kind = .file ∧ settings.accepts name = true ∧ Item.file (path.join name) = next ∨
        kind = .directory ∧ settings.prunes name = false ∧
          Item.directory (path.join name) = next := by
    cases kind with
    | file => simp [itemOf]
    | directory => simp [itemOf]
    | link => simp [itemOf]
  have hentries : fs.entries path = .ok (Node.kinds (listed nodes)) :=
    FileSystem.entries_eq_ok_iff.2 ⟨location, mode, nodes, hlocate, hnode, hread, rfl⟩
  rw [visit, hentries, (visitDirectory_items_perm settings path nodes).mem_iff, List.mem_filterMap]
  simp only [Prod.exists, mem_listed_iff, and_assoc, hitem]

theorem finds_file_iff {file : Path} :
    Finds settings fs (.file path) (.candidate file) ↔ file = path := by
  rw [finds_iff]
  simp [visit, eq_comm]

/-- A file that is looked for at the end of a route. -/
def EndsRoute (settings : Settings) (fs : FileSystem) (path file : Path) : Prop :=
  ∃ location directories name mode content, fs.locate path true = .ok location ∧
    Route settings fs path location directories ∧
    fs.tree.at? (location ++ directories ++ [name]) = some (.file mode content) ∧
    name.isProper = true ∧ settings.accepts name = true ∧ file = (path.below directories).join name

/-- What is found from an entry on is found from the directory on. -/
theorem endsRoute_of_visit {next : Item} {file : Path}
    (hnext : next ∈ (visit settings fs (.directory path)).items)
    (hfile : ∀ path', next = .file path' → file = path')
    (hdirectory : ∀ path', next = .directory path' → EndsRoute settings fs path' file) :
    EndsRoute settings fs path file := by
  obtain ⟨-, hempty | ⟨location, mode, nodes, hlocate, hnode, hread⟩⟩ :=
    visit_directory_cases settings fs path
  · simp [hempty] at hnext
  have hlength := FileSystem.length_lt_of_locate hlocate
  obtain ⟨name, child, hchild, hproper, ⟨hkind, haccepts, rfl⟩ | ⟨hkind, hprunes, rfl⟩⟩ :=
    (mem_visit_directory_iff hlocate hnode hread).1 hnext
  · obtain rfl : file = path.join name := hfile _ rfl
    cases child with
    | directory mode' nodes' => simp [Node.kind] at hkind
    | link target => simp [Node.kind] at hkind
    | file mode' content =>
      refine ⟨location, [], name, mode', content, hlocate, route_nil hnode hread hlength, ?_, hproper,
        haccepts, rfl⟩
      rw [List.append_nil, Node.at?_concat hnode, hchild]
  · obtain ⟨location', directories, last, mode', content, hlocate', hroute, hat, hlast, haccepts,
        rfl⟩ := hdirectory _ rfl
    -- The path of the entry leads to it, so the directory may be searched.
    have hlink : child.kind ≠ .link := by simp [hkind]
    rw [FileSystem.locate_join hlocate hnode hchild hproper hlink] at hlocate'
    split at hlocate'
    · simp at hlocate'
    split at hlocate'
    · next hsearch =>
      obtain rfl := Except.ok.inj hlocate'
      refine ⟨location, name :: directories, last, mode', content, hlocate,
        (route_cons_iff hnode).2 ⟨hread, hsearch, hlength, hproper, hprunes, hroute⟩, ?_, hlast,
        haccepts, rfl⟩
      simpa using hat
    · simp at hlocate'

/-- From a directory on the walk finds the files at the ends of the routes from there. -/
theorem finds_directory_iff {file : Path} :
    Finds settings fs (.directory path) (.candidate file) ↔ EndsRoute settings fs path file := by
  constructor
  · intro h
    -- By induction on the visits.
    generalize hitem : Item.directory path = item at h
    generalize hfinding : Finding.candidate file = finding at h
    induction h generalizing path with
    | here hfound =>
      subst hitem hfinding
      exact absurd hfound ((visit_directory_cases settings fs path).1 file)
    | @later item next finding hnext hlater ih =>
      subst hitem hfinding
      refine endsRoute_of_visit hnext ?_ ?_
      · rintro path' rfl
        exact finds_file_iff.1 hlater
      · rintro path' rfl
        exact ih rfl rfl
  · rintro ⟨location, directories, name, mode, content, hlocate, hroute, hat, hproper, haccepts, rfl⟩
    induction directories generalizing path location with
    | nil =>
      obtain ⟨mode', nodes, hnode, hread, -⟩ := hroute.first
      have hchild : childNamed? nodes name = some (.file mode content) := by
        rw [← Node.at?_concat hnode]
        simpa using hat
      have hnext : .file (path.join name) ∈ (visit settings fs (.directory path)).items :=
        (mem_visit_directory_iff hlocate hnode hread).2
          ⟨name, _, hchild, hproper, .inl ⟨rfl, haccepts, rfl⟩⟩
      exact .later hnext (finds_file_iff.2 rfl)
    | cons directory directories ih =>
      obtain ⟨mode', nodes, hnode, -⟩ := hroute.first
      obtain ⟨hread, hsearch, -, hproper', hprunes, hrest⟩ := (route_cons_iff hnode).1 hroute
      obtain ⟨mode'', nodes', hnode', -, -, hlength⟩ := hrest.first
      have hchild : childNamed? nodes directory = some (.directory mode'' nodes') := by
        rw [← Node.at?_concat hnode, hnode']
      have hlocate' : fs.locate (path.join directory) true = .ok (location ++ [directory]) := by
        rw [FileSystem.locate_join hlocate hnode hchild hproper' (by simp [Node.kind]),
          if_neg (Nat.not_le.2 hlength), if_pos hsearch]
      have hnext : .directory (path.join directory) ∈
          (visit settings fs (.directory path)).items :=
        (mem_visit_directory_iff hlocate hnode hread).2
          ⟨directory, _, hchild, hproper', .inr ⟨rfl, hprunes, rfl⟩⟩
      exact .later hnext (ih _ hlocate' hrest (by simpa using hat))

/-! ### From the root on -/

/-- The directory that a path leads to is walked from the root on, also when the path names a link. -/
theorem finds_root_of_directory {finding : Finding} {mode : Mode} {entries : List (Name × Node)}
    (hnode : fs.node path true = .ok (.directory mode entries))
    (h : Finds settings fs (.directory path) finding) : Finds settings fs (.root path) finding := by
  rcases FileSystem.node_end hnode with hnamed | ⟨target, hnamed⟩
  · have hkind : fs.kind path = .ok .directory := by
      rw [FileSystem.kind, hnamed]
      rfl
    refine .later ?_ h
    simp [visit, visitRoot, hkind]
  · have hkind : fs.kind path = .ok .link := by
      rw [FileSystem.kind, hnamed]
      rfl
    have hbehind : fs.kindBehindLinks path = .ok .directory := by
      rw [FileSystem.kindBehindLinks, hnode]
      rfl
    have hlinked : Finds settings fs (.linkedRoot path) finding := by
      refine .later ?_ h
      simp [visit, visitLinkedRoot, hbehind]
    refine .later ?_ hlinked
    simp [visit, visitRoot, hkind]

theorem finds_linkedRoot {file : Path}
    (h : Finds settings fs (.linkedRoot path) (.candidate file)) :
    Finds settings fs (.directory path) (.candidate file) := by
  rw [finds_iff, visit] at h
  cases hkind : fs.kindBehindLinks path with
  | error cause => simp [visitLinkedRoot, hkind] at h
  | ok kind =>
    cases kind with
    | directory => simpa [visitLinkedRoot, hkind] using h
    | link => simp [visitLinkedRoot, hkind] at h
    | file => simp [visitLinkedRoot, hkind] at h

/-- A walk finds the files at the ends of the routes from its root, or its root if that is a file. -/
theorem finds_root_iff {file : Path} :
    Finds settings fs (.root path) (.candidate file) ↔ EndsRoute settings fs path file ∨
      fs.kind path = .ok .file ∧ settings.accepts path.lastName = true ∧ file = path := by
  constructor
  · intro h
    rw [finds_iff, visit] at h
    cases hkind : fs.kind path with
    | error cause => simp [visitRoot, hkind] at h
    | ok kind =>
      cases kind with
      | directory =>
        refine .inl (finds_directory_iff.1 ?_)
        simpa [visitRoot, hkind] using h
      | link =>
        refine .inl (finds_directory_iff.1 (finds_linkedRoot ?_))
        simpa [visitRoot, hkind] using h
      | file =>
        simp only [visitRoot, hkind] at h
        split at h
        · next haccepts =>
          refine .inr ⟨rfl, haccepts, ?_⟩
          simpa [finds_file_iff] using h
        · simp at h
  · rintro (hends | ⟨hkind, haccepts, rfl⟩)
    · have hfinds := finds_directory_iff.2 hends
      obtain ⟨location, directories, name, mode, content, hlocate, hroute, -⟩ := hends
      obtain ⟨mode', entries, hnode, -⟩ := hroute.first
      exact finds_root_of_directory (FileSystem.node_eq_ok_iff.2 ⟨location, hlocate, hnode⟩) hfinds
    · refine .later ?_ (finds_file_iff.2 rfl)
      simp [visit, visitRoot, hkind, haccepts]

end Walk

/-- A walk finds exactly the files that it should, each of them once.  From the place that the root
leads to, directly or through links, these are the files that are looked for in any directory that
the walk goes through, under the path of the root followed by the names from there.  Links below the
root are neither such directories nor such files, and the name of the root does not count.  A root that
is itself a file is found if it is looked for. -/
theorem candidates_walk_exact (settings : Settings) (fs : FileSystem) :
    (Walk.candidates (walk settings fs)).Nodup ∧
      ∀ path, path ∈ Walk.candidates (walk settings fs) ↔
        (∃ location directories name mode content, fs.locate settings.root true = .ok location ∧
          Walk.Route settings fs settings.root location directories ∧
          fs.tree.at? (location ++ directories ++ [name]) = some (.file mode content) ∧
          name.isProper = true ∧ settings.accepts name = true ∧
          path = (settings.root.below directories).join name) ∨
        fs.kind settings.root = .ok .file ∧ settings.accepts settings.root.lastName = true ∧
          path = settings.root := by
  refine ⟨nodup_candidates_walk settings fs, fun path => ?_⟩
  rw [Walk.mem_candidates, mem_walk_iff, Walk.finds_root_iff]
  rfl

end BackingField
