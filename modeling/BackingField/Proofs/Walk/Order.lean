import BackingField.Proofs.FileSystem.Hidden
import BackingField.Proofs.Sorting
import BackingField.Proofs.Walk.Coverage
import Mathlib.Data.List.Nodup

/-!
# The order of a walk

A directory is gone through in the order of the names in it, and what comes of one entry is done with
before the next one is begun.  So of any two findings the paths part at some name, and the first has
the smaller one there (`Walk.pairwise_before_walk`).  For the lists of names below the root this is
the lexicographic order.  It does not depend on the order in which a directory stores its entries
(`walk_eq_of_sameNodes`).  For the candidates, this is `candidates_walk_ordered`.
-/

namespace BackingField

/-! ### Names in order -/

namespace Name

theorem lt_of_compare_eq_lt : ∀ {a b : Name}, compare a b = .lt → a < b
  | [], [], h => by simp at h
  | [], b :: bs, _ => List.nil_lt_cons b bs
  | a :: as, [], h => by simp [List.compare_cons_nil] at h
  | a :: as, b :: bs, h => by
    rw [List.compare_cons_cons, Ordering.then_eq_lt] at h
    rcases h with hfirst | ⟨hsame, hrest⟩
    · exact List.cons_lt_cons_iff.2 (.inl (compareOfLessAndEq_eq_lt.1 hfirst))
    · have heq := Std.LawfulEqOrd.eq_of_compare hsame
      exact List.cons_lt_cons_iff.2 (.inr ⟨heq, lt_of_compare_eq_lt hrest⟩)

theorem lt_of_le_of_ne {a b : Name} (h : le a b = true) (hne : a ≠ b) : a < b := by
  refine lt_of_compare_eq_lt ?_
  unfold le at h
  cases hcompare : compare a b with
  | lt => rfl
  | eq => exact absurd (Std.LawfulEqOrd.eq_of_compare hcompare) hne
  | gt => simp [hcompare] at h

theorem le_total (a b : Name) : le a b = true ∨ le b a = true := by
  unfold le
  rw [Std.OrientedOrd.eq_swap (a := b)]
  cases compare a b with
  | lt => exact .inl rfl
  | eq => exact .inl rfl
  | gt => exact .inr rfl

/-- Entries of different names are sorted strictly. -/
theorem pairwise_sortBy_le {α : Type} {entries : List (Name × α)}
    (h : (entries.map Prod.fst).Nodup) :
    (sortBy (fun a b : Name × α => le a.1 b.1) entries).Pairwise fun a b => a.1 < b.1 := by
  have hle : (sortBy (fun a b : Name × α => le a.1 b.1) entries).Pairwise
      fun a b => le a.1 b.1 = true := by
    refine pairwise_sortBy (fun a b c hab hbc => ?_) (fun a b => le_total a.1 b.1) entries
    exact Std.TransOrd.isLE_trans hab hbc
  have hne : (sortBy (fun a b : Name × α => le a.1 b.1) entries).Pairwise fun a b => a.1 ≠ b.1 :=
    List.pairwise_map.1 (((sortBy_perm _ entries).map Prod.fst).nodup_iff.2 h)
  exact (hle.and hne).imp fun ⟨hab, hab'⟩ => lt_of_le_of_ne hab hab'

/-- However they come, they are sorted the same. -/
theorem sortBy_le_eq_of_perm {α : Type} {entries entries' : List (Name × α)}
    (hperm : entries.Perm entries') (h : (entries.map Prod.fst).Nodup) :
    sortBy (fun a b : Name × α => le a.1 b.1) entries =
      sortBy (fun a b : Name × α => le a.1 b.1) entries' := by
  have hsorted : (sortBy (fun a b : Name × α => le a.1 b.1) entries).Perm
      (sortBy (fun a b : Name × α => le a.1 b.1) entries') :=
    (sortBy_perm _ entries).trans (hperm.trans (sortBy_perm _ entries').symm)
  have hnodup' : (entries'.map Prod.fst).Nodup := (hperm.map Prod.fst).nodup_iff.1 h
  refine hsorted.eq_of_pairwise ?_ (pairwise_sortBy_le h) (pairwise_sortBy_le hnodup')
  intro a b _ _ hab hba
  exact absurd hba (List.lt_asymm hab)

end Name

namespace Location

/-- Two lists of names part at some name, and the first list has the smaller one there. -/
def Before (place place' : Location) : Prop :=
  ∃ above name name' rest rest', place = above ++ name :: rest ∧
    place' = above ++ name' :: rest' ∧ name < name'

variable {place place' : Location}

theorem before_concat (place : Location) {name name' : Name} (h : name < name') :
    Before (place ++ [name]) (place ++ [name']) :=
  ⟨place, name, name', [], [], rfl, rfl, h⟩

/-- What comes behind the place where they part makes no difference. -/
theorem Before.append (h : Before place place') (more more' : Location) :
    Before (place ++ more) (place' ++ more') := by
  obtain ⟨above, name, name', rest, rest', rfl, rfl, hlt⟩ := h
  exact ⟨above, name, name', rest ++ more, rest' ++ more', by simp, by simp, hlt⟩

/-- Names that both begin with make no difference for the lexicographic order of the rest. -/
theorem Before.lt_of_append {front : Location} (h : Before (front ++ place) (front ++ place')) :
    place < place' := by
  obtain ⟨above, name, name', rest, rest', hplace, hplace', hlt⟩ := h
  induction front generalizing above with
  | nil =>
    rw [List.nil_append] at hplace hplace'
    rw [hplace, hplace']
    exact List.append_left_lt (List.cons_lt_cons_iff.2 (.inl hlt))
  | cons first front ih =>
    cases above with
    | nil =>
      obtain ⟨rfl, -⟩ := List.cons_eq_cons.1 hplace
      obtain ⟨rfl, -⟩ := List.cons_eq_cons.1 hplace'
      exact absurd hlt (List.lt_irrefl _)
    | cons first' above =>
      exact ih above (List.cons_eq_cons.1 hplace).2 (List.cons_eq_cons.1 hplace').2

end Location

/-! ### The path of an entry -/

namespace Path

/-- The names that a path has behind those of a root. -/
def namesBelow (root path : Path) : List Name :=
  (names path).drop (names root).length

/-- The path leads on from the root, over proper names. -/
def LeadsOnFrom (root path : Path) : Prop :=
  names path = names root ++ namesBelow root path ∧ path = root.below (namesBelow root path) ∧
    ∀ name ∈ namesBelow root path, name.isProper = true

theorem leadsOnFrom_self (root : Path) : LeadsOnFrom root root := by
  have hnone : namesBelow root root = [] := List.drop_length
  rw [LeadsOnFrom, hnone]
  exact ⟨(List.append_nil _).symm, rfl, by simp⟩

theorem below_concat (path : Path) (names : List Name) (name : Name) :
    path.below (names ++ [name]) = (path.below names).join name := by
  simp [below]

/-- A name put behind a path is one name more below the root. -/
theorem LeadsOnFrom.namesBelow_join {root path : Path} {name : Name} (h : LeadsOnFrom root path)
    (hpath : path ≠ []) (hname : name.isProper = true) :
    namesBelow root (path.join name) = namesBelow root path ++ [name] := by
  rw [namesBelow, names_join hpath (Name.proper_of_isProper hname), h.1, List.append_assoc,
    List.drop_left]

theorem LeadsOnFrom.join {root path : Path} {name : Name} (h : LeadsOnFrom root path)
    (hpath : path ≠ []) (hname : name.isProper = true) : LeadsOnFrom root (path.join name) := by
  have hmore := h.namesBelow_join hpath hname
  obtain ⟨hnames, hbelow, hproper⟩ := h
  rw [LeadsOnFrom, hmore]
  refine ⟨?_, ?_, fun name' hname' => ?_⟩
  · rw [names_join hpath (Name.proper_of_isProper hname), ← List.append_assoc, ← hnames]
  · rw [below_concat, ← hbelow]
  · rcases List.mem_append.1 hname' with hold | hnew
    · exact hproper name' hold
    · rwa [List.mem_singleton.1 hnew]

end Path

namespace Walk

open FileSystem
open Location (Before)

variable {settings : Settings} {fs fs' : FileSystem}

/-- A visit of a directory leads on to entries of it. -/
theorem entry_of_visit_directory {path : Path} {next : Item}
    (h : next ∈ (visit settings fs (.directory path)).items) :
    ∃ location mode nodes name child, fs.locate path true = .ok location ∧
      fs.tree.at? location = some (.directory mode nodes) ∧ childNamed? nodes name = some child ∧
      name.isProper = true ∧ child.kind ≠ .link ∧ next.path = path.join name := by
  obtain ⟨-, hempty | ⟨location, mode, nodes, hlocate, hnode, hread⟩⟩ :=
    visit_directory_cases settings fs path
  · simp [hempty] at h
  obtain ⟨name, child, hchild, hproper, ⟨hkind, -, rfl⟩ | ⟨hkind, -, rfl⟩⟩ :=
    (mem_visit_directory_iff hlocate hnode hread).1 h
  · exact ⟨location, mode, nodes, name, child, hlocate, hnode, hchild, hproper, by simp [hkind], rfl⟩
  · exact ⟨location, mode, nodes, name, child, hlocate, hnode, hchild, hproper, by simp [hkind], rfl⟩

/-- Any other visit leads on to the same path. -/
theorem path_of_visit {item next : Item} (h : next ∈ (visit settings fs item).items) :
    next.path = item.path ∨ item = .directory item.path := by
  cases item with
  | file path => simp [visit] at h
  | root path =>
    refine .inl ?_
    rcases visit_root_items settings fs path with hitems | hitems | hitems | hitems
    · simp [hitems] at h
    · simp_all [Item.path]
    · simp_all [Item.path]
    · simp_all [Item.path]
  | linkedRoot path =>
    refine .inl ?_
    rcases visit_linkedRoot_items settings fs path with hitems | hitems
    · simp [hitems] at h
    · simp_all [Item.path]
  | directory path => exact .inr rfl

/-- So it leads on to the same path, or to that of a proper entry. -/
theorem join_of_visit {item next : Item} (h : next ∈ (visit settings fs item).items) :
    next.path = item.path ∨
      item.path ≠ [] ∧ ∃ name, name.isProper = true ∧ next.path = item.path.join name := by
  rcases path_of_visit h with hsame | hitem
  · exact .inl hsame
  · rw [hitem] at h
    obtain ⟨location, _, _, name, _, hlocate, -, -, hproper, -, hjoin⟩ := entry_of_visit_directory h
    exact .inr ⟨(locate_eq_ok hlocate).1, name, hproper, hjoin⟩

theorem names_of_visit {item next : Item} (h : next ∈ (visit settings fs item).items) :
    ∃ more, Path.names next.path = Path.names item.path ++ more := by
  rcases join_of_visit h with hsame | ⟨hne, name, hproper, hjoin⟩
  · exact ⟨[], by rw [hsame, List.append_nil]⟩
  · exact ⟨[name], by rw [hjoin, Path.names_join hne (Name.proper_of_isProper hproper)]⟩

/-- All that is found from the root on has a path that leads on from the root. -/
theorem leadsOnFrom_root (settings : Settings) (fs : FileSystem) :
    ∀ finding ∈ walk settings fs, settings.root.LeadsOnFrom finding.path := by
  refine forall_path_findings (fun item hitem next hnext => ?_) ?_
  · rcases join_of_visit hnext with hsame | ⟨hne, name, hproper, hjoin⟩
    · rwa [hsame]
    · rw [hjoin]
      exact hitem.join hne hproper
  · simpa [start, Item.path] using Path.leadsOnFrom_self settings.root

/-! ### Findings in order -/

/-- The items of a directory stand in the order of their names. -/
theorem pairwise_before_visit_directory (settings : Settings) (fs : FileSystem) (path : Path) :
    (visit settings fs (.directory path)).items.Pairwise
      fun next next' => Before (Path.names next.path) (Path.names next'.path) := by
  rw [visit]
  cases hentries : fs.entries path with
  | error cause => exact List.Pairwise.nil
  | ok entries =>
    obtain ⟨location, hlocation, hnests⟩ := fs.nests_names path entries hentries
    have hsorted := Name.pairwise_sortBy_le (nodup_names_entries hentries)
    refine List.pairwise_filterMap.2 (hsorted.imp_of_mem ?_)
    rintro ⟨name, kind⟩ ⟨name', kind'⟩ hmem hmem' hlt next hnext next' hnext'
    obtain ⟨hpath, hlink⟩ := itemOf_eq_some hnext
    obtain ⟨hpath', hlink'⟩ := itemOf_eq_some hnext'
    have hperm := sortBy_perm (fun a b : Name × Kind => Name.le a.1 b.1) entries
    rw [hpath, hpath', hnests name kind (hperm.mem_iff.1 hmem) hlink _ rfl,
      hnests name' kind' (hperm.mem_iff.1 hmem') hlink' _ rfl]
    exact Location.before_concat location hlt

theorem keptByVisits_before (settings : Settings) (fs : FileSystem) :
    KeptByVisits settings fs fun path path' => Before (Path.names path) (Path.names path') where
  among item := by
    cases item with
    | file path => exact List.Pairwise.nil
    | directory path => exact pairwise_before_visit_directory settings fs path
    | root path =>
      rcases visit_root_items settings fs path with hitems | hitems | hitems | hitems
      · simp [hitems]
      · simp [hitems]
      · simp [hitems]
      · simp [hitems]
    | linkedRoot path =>
      rcases visit_linkedRoot_items settings fs path with hitems | hitems
      · simp [hitems]
      · simp [hitems]
  before item next hnext path hbefore := by
    obtain ⟨more, hmore⟩ := names_of_visit hnext
    rw [hmore, ← List.append_nil (Path.names path)]
    exact hbefore.append more []
  behind item next hnext path hbefore := by
    obtain ⟨more, hmore⟩ := names_of_visit hnext
    rw [hmore, ← List.append_nil (Path.names path)]
    exact hbefore.append [] more

/-- Of any two findings of a walk, the first stands before the second. -/
theorem pairwise_before_walk (settings : Settings) (fs : FileSystem) : (walk settings fs).Pairwise
    fun finding finding' => Before (Path.names finding.path) (Path.names finding'.path) :=
  (keptByVisits_before settings fs).pairwise_findings (List.pairwise_singleton _ _)

/-- So the lists of names below the root are in lexicographic order. -/
theorem pairwise_lt_walk (settings : Settings) (fs : FileSystem) : (walk settings fs).Pairwise
    fun finding finding' =>
      settings.root.namesBelow finding.path < settings.root.namesBelow finding'.path := by
  refine (pairwise_before_walk settings fs).imp_of_mem fun hmem hmem' hbefore => ?_
  rw [(leadsOnFrom_root settings fs _ hmem).1, (leadsOnFrom_root settings fs _ hmem').1] at hbefore
  exact hbefore.lt_of_append

end Walk

/-! ### Two trees with the same signposts -/

namespace FileSystem

/-- The directory that a path leads to may be read in both or in neither. -/
def SameReadAt (fs fs' : FileSystem) (path : Path) : Prop :=
  ∀ location mode mode' nodes nodes', fs.locate path true = .ok location →
    fs.tree.at? location = some (.directory mode nodes) →
    fs'.tree.at? location = some (.directory mode' nodes') → mode.read = mode'.read

theorem nodup_names_kinds_listed (nodes : List (Name × Node)) :
    ((Node.kinds (listed nodes)).map Prod.fst).Nodup := by
  rw [Node.kinds, List.map_map]
  exact nodup_names_listed nodes

theorem mem_kinds_listed_iff {nodes : List (Name × Node)} {name : Name} {kind : Kind} :
    (name, kind) ∈ Node.kinds (listed nodes) ↔
      (childNamed? nodes name).map Node.kind = some kind ∧ name.isProper = true := by
  simp only [Node.kinds, List.mem_map, Prod.exists, mem_listed_iff, Prod.mk.injEq,
    Option.map_eq_some_iff]
  constructor
  · rintro ⟨_, child, ⟨hchild, hproper⟩, rfl, rfl⟩
    exact ⟨⟨child, hchild, rfl⟩, hproper⟩
  · rintro ⟨⟨child, hchild, rfl⟩, hproper⟩
    exact ⟨name, child, ⟨hchild, hproper⟩, rfl, rfl⟩

/-- A directory lists the same entries in both, though perhaps in another order. -/
theorem SameSignposts.listed_perm {fs fs' : FileSystem} (h : SameSignposts fs fs')
    {place : Location} {mode mode' : Mode} {nodes nodes' : List (Name × Node)}
    (hnode : fs.tree.at? place = some (.directory mode nodes))
    (hnode' : fs'.tree.at? place = some (.directory mode' nodes')) :
    (Node.kinds (listed nodes)).Perm (Node.kinds (listed nodes')) := by
  refine (List.perm_ext_iff_of_nodup (nodup_names_kinds_listed nodes).of_map
    (nodup_names_kinds_listed nodes').of_map).2 fun ⟨name, kind⟩ => ?_
  rw [mem_kinds_listed_iff, mem_kinds_listed_iff, ← Node.at?_concat hnode,
    ← Node.at?_concat hnode', h.tree.map_kind_eq]

end FileSystem

namespace Walk

open FileSystem

/-- Apart from signposts, a visit asks only whether a directory may be read. -/
theorem visit_eq_of_signposts {settings : Settings} {fs fs' : FileSystem}
    (h : SameSignposts fs fs') {item : Item}
    (hread : ∀ path, item = .directory path → SameReadAt fs fs' path) :
    visit settings fs item = visit settings fs' item := by
  cases item with
  | root path => simp only [visit, h.kind_eq]
  | linkedRoot path => simp only [visit, h.kindBehindLinks_eq]
  | file path => rfl
  | directory path =>
    rw [visit, visit]
    rcases h.node_cases path true with ⟨cause, hnode, hnode'⟩ |
      ⟨location, node, node', hlocate, hat, hat', heq, hnode, hnode'⟩
    · simp only [FileSystem.entries, bind, Except.bind, hnode, hnode']
    · rcases Node.signpost_eq_cases heq with ⟨_, _, _, _, rfl, rfl⟩ |
        ⟨mode, mode', nodes, nodes', rfl, rfl, -⟩ | ⟨_, rfl, rfl⟩
      · simp only [FileSystem.entries, bind, Except.bind, hnode, hnode']
      · rw [entries_of_node hnode, entries_of_node hnode',
          hread path rfl location mode mode' nodes nodes' hlocate hat hat']
        split
        · rw [visitDirectory, visitDirectory,
            Name.sortBy_le_eq_of_perm (h.listed_perm hat hat') (nodup_names_kinds_listed nodes)]
        · rfl
      · simp only [FileSystem.entries, bind, Except.bind, hnode, hnode']

end Walk

/-! ### The order in which entries are stored -/

namespace Node

/-- A node without what is in it, if it is a directory. -/
def withoutEntries : Node → Node
  | file mode content => file mode content
  | directory mode _ => directory mode []
  | link target => link target

theorem withoutEntries_eq_of_face_eq {node node' : Node} (h : node.face = node'.face) :
    node.withoutEntries = node'.withoutEntries := by
  rcases face_eq_cases h with ⟨_, _, rfl, rfl⟩ | ⟨_, _, _, rfl, rfl, -⟩ | ⟨_, rfl, rfl⟩
  · rfl
  · rfl
  · rfl

theorem signpost_withoutEntries (node : Node) : node.withoutEntries.signpost = node.signpost := by
  cases node with
  | file mode content => rfl
  | directory mode entries => rfl
  | link target => rfl

/-- Where no name comes twice, every entry counts. -/
theorem childNamed?_eq_some_iff {entries : List (Name × Node)} (h : (entries.map Prod.fst).Nodup)
    {name : Name} {node : Node} : childNamed? entries name = some node ↔ (name, node) ∈ entries := by
  induction entries with
  | nil => simp [childNamed?]
  | cons entry entries ih =>
    obtain ⟨first, other⟩ := entry
    obtain ⟨hfirst, hrest⟩ := List.nodup_cons.1 h
    rw [childNamed?_cons, List.mem_cons]
    by_cases hname : first = name
    · subst hname
      have hnot : (first, node) ∉ entries := fun hmem =>
        hfirst (List.mem_map.2 ⟨(first, node), hmem, rfl⟩)
      simp [hnot, eq_comm]
    · simp [hname, Ne.symm hname, ih hrest]

theorem childNamed?_eq_of_perm {entries entries' : List (Name × Node)}
    (hperm : entries.Perm entries') (h : (entries.map Prod.fst).Nodup) (name : Name) :
    childNamed? entries name = childNamed? entries' name := by
  refine Option.ext fun node => ?_
  rw [childNamed?_eq_some_iff h, childNamed?_eq_some_iff ((hperm.map Prod.fst).nodup_iff.1 h),
    hperm.mem_iff]

/-- A directory with the same entries, put in the place of another, makes no difference elsewhere. -/
theorem withoutEntries_putAt {tree : Node} {place : Location} {mode mode' : Mode}
    {nodes nodes' : List (Name × Node)} (hnode : tree.at? place = some (.directory mode nodes))
    (hsame : ∀ name, childNamed? nodes' name = childNamed? nodes name) {other : Location}
    (hother : other ≠ place) :
    ((tree.putAt place (.directory mode' nodes')).at? other).map withoutEntries =
      (tree.at? other).map withoutEntries := by
  by_cases hbelow : place <+: other
  · obtain ⟨more, rfl⟩ := hbelow
    rw [at?_putAt_append hnode, at?_append, hnode, Option.bind_some]
    cases more with
    | nil => exact absurd (List.append_nil place) hother
    | cons name more => rw [at?, at?, hsame]
  · have hkind : (directory mode' nodes').kind = (directory mode nodes).kind := rfl
    rcases map_eq_cases (face_putAt hnode hkind hbelow) with ⟨hnone, hnone'⟩ |
      ⟨node, node', hnew, hold, heq⟩
    · rw [hnone, hnone']
    · rw [hnew, hold, Option.map_some, Option.map_some, withoutEntries_eq_of_face_eq heq]

theorem map_signpost_eq {node? node?' : Option Node}
    (h : node?.map withoutEntries = node?'.map withoutEntries) :
    node?.map signpost = node?'.map signpost := by
  rcases map_eq_cases h with ⟨hnone, hnone'⟩ | ⟨node, node', hnode, hnode', heq⟩
  · rw [hnone, hnone']
  · rw [hnode, hnode', Option.map_some, Option.map_some, ← node.signpost_withoutEntries, heq,
      node'.signpost_withoutEntries]

/-- Directories that are the same but for their entries have the same mode. -/
theorem mode_eq_of_withoutEntries_eq {mode mode' : Mode} {nodes nodes' : List (Name × Node)}
    {node? node?' : Option Node} (h : node?.map withoutEntries = node?'.map withoutEntries)
    (hnode : node? = some (.directory mode nodes))
    (hnode' : node?' = some (.directory mode' nodes')) : mode = mode' := by
  simpa [hnode, hnode', withoutEntries] using h

end Node

namespace FileSystem

/-- At every place both file systems have the same: nothing, the same file, the same link, or
directories of the same mode.  So they differ at most in the order in which entries are stored. -/
structure SameNodes (fs fs' : FileSystem) : Prop where
  node : ∀ place, (fs.tree.at? place).map Node.withoutEntries =
    (fs'.tree.at? place).map Node.withoutEntries
  here : fs.here = fs'.here

variable {fs fs' : FileSystem}

theorem SameNodes.signposts (h : SameNodes fs fs') : SameSignposts fs fs' :=
  ⟨fun place => Node.map_signpost_eq (h.node place), h.here⟩

theorem SameNodes.sameReadAt (h : SameNodes fs fs') (path : Path) : SameReadAt fs fs' path := by
  intro location mode mode' nodes nodes' _ hnode hnode'
  rw [Node.mode_eq_of_withoutEntries_eq (h.node location) hnode hnode']

/-- The entries of any directory can be stored in another order. -/
theorem SameNodes.of_perm {place : Location} {mode : Mode} {nodes nodes' : List (Name × Node)}
    (hnode : fs.tree.at? place = some (.directory mode nodes)) (hperm : nodes.Perm nodes')
    (hnames : (nodes.map Prod.fst).Nodup) :
    SameNodes fs { fs with tree := fs.tree.putAt place (.directory mode nodes') } := by
  refine ⟨fun other => ?_, rfl⟩
  by_cases hother : other = place
  · have hnew := Node.at?_putAt_append hnode (.directory mode nodes') []
    rw [List.append_nil] at hnew
    rw [hother, hnode, hnew]
    rfl
  · exact (Node.withoutEntries_putAt hnode
      (fun name => (Node.childNamed?_eq_of_perm hperm hnames name).symm) hother).symm

end FileSystem

/-- A walk does not depend on the order in which entries are stored. -/
theorem walk_eq_of_sameNodes {fs fs' : FileSystem} (h : FileSystem.SameNodes fs fs')
    (settings : Settings) : walk settings fs = walk settings fs' := by
  rw [Walk.walk_eq_found, Walk.walk_eq_found]
  exact Walk.found_congr (fun _ => True)
    (fun _ _ => Walk.visit_eq_of_signposts h.signposts fun path _ => h.sameReadAt path)
    (fun _ _ _ _ => trivial) fun _ _ => trivial

/-- The candidates of a walk come in the lexicographic order of their names below the root, where
names are compared byte by byte.  So none comes twice.  Each candidate is the root followed by these
names.  The order in which a directory stores its entries makes no difference, not even for what
could not be looked at. -/
theorem candidates_walk_ordered (settings : Settings) (fs : FileSystem) :
    (Walk.candidates (walk settings fs)).Pairwise (fun path path' =>
        settings.root.namesBelow path < settings.root.namesBelow path') ∧
      (Walk.candidates (walk settings fs)).Nodup ∧
      (∀ path ∈ Walk.candidates (walk settings fs),
        path = settings.root.below (settings.root.namesBelow path) ∧
          ∀ name ∈ settings.root.namesBelow path, name.isProper = true) ∧
      ∀ fs', FileSystem.SameNodes fs fs' → walk settings fs' = walk settings fs := by
  refine ⟨?_, nodup_candidates_walk settings fs, fun path hpath => ?_, fun fs' h => ?_⟩
  · refine List.pairwise_filterMap.2 ((Walk.pairwise_lt_walk settings fs).imp ?_)
    intro finding finding' hlt path hpath path' hpath'
    cases finding with
    | unreadable _ _ => simp at hpath
    | candidate _ =>
      cases finding' with
      | unreadable _ _ => simp at hpath'
      | candidate _ =>
        obtain rfl := Option.some.inj hpath
        obtain rfl := Option.some.inj hpath'
        exact hlt
  · obtain ⟨-, hbelow, hproper⟩ :=
      Walk.leadsOnFrom_root settings fs _ (Walk.mem_candidates.1 hpath)
    exact ⟨hbelow, hproper⟩
  · exact (walk_eq_of_sameNodes h settings).symm

/-- Settings that leave out no directory and look for `.cs`, in the directory one works in. -/
def everyCs : Settings :=
  ⟨Name.self, [], ".cs".toList⟩

/-- The file `a-b.cs`, as an entry. -/
def dashEntry : Name × Node :=
  (Utf8.encode "a-b.cs".toList, .file Mode.newFile [])

/-- The directory `a` with the file `x.cs`, as an entry. -/
def directoryEntry : Name × Node :=
  (Utf8.encode "a".toList,
    .directory Mode.newDirectory [(Utf8.encode "x.cs".toList, .file Mode.newFile [])])

/-- In whichever order they are stored, `a/x.cs` comes before `a-b.cs`, because `a` is the smaller
name.  As a sequence of bytes, `a-b.cs` is the smaller path. -/
theorem candidates_walk_ordered_dash :
    let stored (entries : List (Name × Node)) : FileSystem :=
      { tree := .directory Mode.newDirectory entries }
    let inner := Path.ofText "./a/x.cs".toList
    let dash := Path.ofText "./a-b.cs".toList
    walk everyCs (stored [directoryEntry, dashEntry]) =
        walk everyCs (stored [dashEntry, directoryEntry]) ∧
      Walk.candidates (walk everyCs (stored [dashEntry, directoryEntry])) = [inner, dash] ∧
      everyCs.root.namesBelow inner < everyCs.root.namesBelow dash ∧ dash < inner := by
  intro stored inner dash
  have hsame : FileSystem.SameNodes (stored [dashEntry, directoryEntry])
      (stored [directoryEntry, dashEntry]) := by
    have htop : (stored [dashEntry, directoryEntry]).tree.at? [] =
        some (.directory Mode.newDirectory [dashEntry, directoryEntry]) := rfl
    exact FileSystem.SameNodes.of_perm htop (List.Perm.swap _ _ _) (by decide +kernel)
  obtain ⟨hsorted, -, -, hstored⟩ :=
    candidates_walk_ordered everyCs (stored [dashEntry, directoryEntry])
  have hfound : Walk.candidates (walk everyCs (stored [dashEntry, directoryEntry])) =
      [inner, dash] := by decide +kernel
  rw [hfound, List.pairwise_pair] at hsorted
  exact ⟨hstored _ hsame, hfound, hsorted, by decide +kernel⟩

end BackingField
