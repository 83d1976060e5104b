import BackingField.Proofs.FileSystem.Signposts

/-!
# The shape of a tree

The skeleton of a tree is the tree without the contents of its files: all names, kinds, modes and
link targets.  Where a path leads to, of what kind that is and what a directory holds depend
on the skeleton alone (`FileSystem.SameShape`), and new contents for a file leave the skeleton as it
is.
-/

namespace BackingField
namespace Node

mutual

/-- A tree without the contents of its files. -/
def skeleton : Node → Node
  | file mode _ => file mode []
  | directory mode entries => directory mode (skeletonAll entries)
  | link target => link target

/-- The entries of a directory without the contents of their files. -/
def skeletonAll : List (Name × Node) → List (Name × Node)
  | [] => []
  | entry :: rest => skeletonEntry entry :: skeletonAll rest

/-- An entry of a directory without the contents of its files. -/
def skeletonEntry : Name × Node → Name × Node
  | (name, node) => (name, node.skeleton)

end

/-- Contents of the file at a location, if there is a file. -/
def contentAt? (tree : Node) (location : Location) : Option Bytes :=
  match tree.at? location with
  | some (.file _ content) => some content
  | _ => none

@[simp] theorem kind_skeleton (node : Node) : node.skeleton.kind = node.kind := by
  cases node with
  | file mode content => rfl
  | directory mode entries => simp [skeleton, kind]
  | link target => rfl

/-- Nodes of one skeleton are of one kind, and are the same but for the contents of files. -/
theorem skeleton_eq_cases {node node' : Node} (h : node.skeleton = node'.skeleton) :
    (∃ mode content content', node = file mode content ∧ node' = file mode content') ∨
      (∃ mode entries entries', node = directory mode entries ∧ node' = directory mode entries' ∧
        skeletonAll entries = skeletonAll entries') ∨
      ∃ target, node = link target ∧ node' = link target := by
  cases node with
  | file mode content =>
    cases node' with
    | file mode' content' =>
      obtain rfl : mode = mode' := by simpa [skeleton] using h
      exact .inl ⟨mode, content, content', rfl, rfl⟩
    | directory mode' entries' => simp [skeleton] at h
    | link target' => simp [skeleton] at h
  | directory mode entries =>
    cases node' with
    | file mode' content' => simp [skeleton] at h
    | directory mode' entries' =>
      obtain ⟨rfl, hentries⟩ : mode = mode' ∧ skeletonAll entries = skeletonAll entries' := by
        simpa [skeleton] using h
      exact .inr (.inl ⟨mode, entries, entries', rfl, rfl, hentries⟩)
    | link target' => simp [skeleton] at h
  | link target =>
    cases node' with
    | file mode' content' => simp [skeleton] at h
    | directory mode' entries' => simp [skeleton] at h
    | link target' =>
      obtain rfl : target = target' := by simpa [skeleton] using h
      exact .inr (.inr ⟨target, rfl, rfl⟩)

theorem childNamed?_cons (entry : Name × Node) (entries : List (Name × Node)) (name : Name) :
    childNamed? (entry :: entries) name =
      if entry.1 = name then some entry.2 else childNamed? entries name := by
  unfold childNamed?
  by_cases h : entry.1 = name
  · simp [h]
  · simp [h]

theorem childNamed?_skeletonAll (entries : List (Name × Node)) (name : Name) :
    childNamed? (skeletonAll entries) name = (childNamed? entries name).map skeleton := by
  induction entries with
  | nil => rfl
  | cons entry entries ih =>
    obtain ⟨first, node⟩ := entry
    rw [skeletonAll, skeletonEntry, childNamed?_cons, childNamed?_cons, ih]
    by_cases h : first = name
    · simp [h]
    · simp [h]

theorem at?_skeleton (tree : Node) (location : Location) :
    tree.skeleton.at? location = (tree.at? location).map skeleton := by
  induction location generalizing tree with
  | nil => rfl
  | cons name rest ih =>
    cases tree with
    | file mode content => rfl
    | link target => rfl
    | directory mode entries =>
      rw [skeleton, at?, at?, childNamed?_skeletonAll]
      cases childNamed? entries name with
      | none => rfl
      | some child => exact ih child

/-- Paths lead to the same locations with and without the contents of files. -/
theorem sameSignposts_skeleton (tree : Node) : SameSignposts tree.skeleton tree := by
  intro place
  rw [at?_skeleton]
  cases tree.at? place with
  | none => rfl
  | some node =>
    cases node with
    | file mode content => rfl
    | directory mode entries => rfl
    | link target => rfl

/-! ### New contents for a file -/

theorem childNamed?_putChild (entries : List (Name × Node)) (name name' : Name) (node : Node) :
    childNamed? (putChild entries name node) name' =
      if name' = name then some node else childNamed? entries name' := by
  induction entries with
  | nil =>
    rw [putChild, childNamed?_cons]
    by_cases h : name' = name
    · simp [h]
    · simp [h, Ne.symm h]
  | cons entry entries ih =>
    rw [putChild]
    by_cases hentry : entry.1 = name
    · rw [if_pos hentry, childNamed?_cons, childNamed?_cons]
      by_cases h : name' = name
      · simp [h]
      · simp [h, Ne.symm h, hentry]
    · rw [if_neg hentry, childNamed?_cons, childNamed?_cons, ih]
      by_cases h : name' = name
      · simp [h, hentry]
      · simp [h]

theorem skeletonAll_putChild {entries : List (Name × Node)} {name : Name} {child node : Node}
    (hchild : childNamed? entries name = some child) (hnode : node.skeleton = child.skeleton) :
    skeletonAll (putChild entries name node) = skeletonAll entries := by
  induction entries with
  | nil => simp [childNamed?] at hchild
  | cons entry entries ih =>
    obtain ⟨first, other⟩ := entry
    rw [childNamed?_cons] at hchild
    rw [putChild]
    by_cases h : first = name
    · obtain rfl : other = child := by simpa [h] using hchild
      rw [if_pos h, skeletonAll, skeletonAll, skeletonEntry, skeletonEntry, hnode, h]
    · have hrest : childNamed? entries name = some child := by simpa [h] using hchild
      rw [if_neg h, skeletonAll, skeletonAll, ih hrest]

/-- Below the top, a node is put into the entry that the location begins with. -/
theorem putAt_cons {mode : Mode} {entries : List (Name × Node)} {name : Name} {child : Node}
    (hchild : childNamed? entries name = some child) (rest : Location) (node : Node) :
    (directory mode entries).putAt (name :: rest) node =
      directory mode (putChild entries name (child.putAt rest node)) := by
  cases rest with
  | nil => rfl
  | cons name' rest => simp [putAt, hchild]

theorem exists_child_of_at? {tree node : Node} {name : Name} {rest : Location}
    (h : tree.at? (name :: rest) = some node) :
    ∃ mode entries child, tree = directory mode entries ∧ childNamed? entries name = some child ∧
      child.at? rest = some node := by
  cases tree with
  | file mode content => simp [at?] at h
  | link target => simp [at?] at h
  | directory mode entries =>
    rw [at?] at h
    obtain ⟨child, hchild, hrest⟩ := Option.bind_eq_some_iff.1 h
    exact ⟨mode, entries, child, rfl, hchild, hrest⟩

theorem skeleton_putAt {tree : Node} {location : Location} {mode : Mode} {content : Bytes}
    (h : tree.at? location = some (.file mode content)) (content' : Bytes) :
    (tree.putAt location (.file mode content')).skeleton = tree.skeleton := by
  induction location generalizing tree with
  | nil =>
    obtain rfl : tree = .file mode content := by simpa [at?] using h
    rfl
  | cons name rest ih =>
    obtain ⟨mode', entries, child, rfl, hchild, hrest⟩ := exists_child_of_at? h
    rw [putAt_cons hchild, skeleton, skeleton, skeletonAll_putChild hchild (ih hrest)]

/-- Only the contents of the one file are new. -/
theorem contentAt?_putAt {tree : Node} {location : Location} {mode : Mode} {content : Bytes}
    (h : tree.at? location = some (.file mode content)) (content' : Bytes) (other : Location) :
    (tree.putAt location (.file mode content')).contentAt? other =
      if other = location then some content' else tree.contentAt? other := by
  induction location generalizing tree other with
  | nil =>
    obtain rfl : tree = .file mode content := by simpa [at?] using h
    cases other with
    | nil => rfl
    | cons name rest => rfl
  | cons name rest ih =>
    obtain ⟨mode', entries, child, rfl, hchild, hrest⟩ := exists_child_of_at? h
    rw [putAt_cons hchild]
    cases other with
    | nil => rfl
    | cons name' rest' =>
      have hinner := ih hrest rest'
      unfold contentAt? at hinner ⊢
      rw [at?, at?, childNamed?_putChild]
      -- The two locations part at this name or further down.
      by_cases hname : name' = name
      · rw [if_pos hname, hname, hchild, Option.bind_some, Option.bind_some, hinner]
        simp
      · rw [if_neg hname]
        simp [hname]

/-- Where neither place lies in the other, nothing is new. -/
theorem at?_putAt_of_apart {tree node : Node} {location other : Location}
    (h : tree.at? location = some node) (node' : Node) (habove : ¬ location <+: other)
    (hbelow : ¬ other <+: location) : (tree.putAt location node').at? other = tree.at? other := by
  induction location generalizing tree other with
  | nil => exact absurd List.nil_prefix habove
  | cons name rest ih =>
    obtain ⟨mode, entries, child, rfl, hchild, hrest⟩ := exists_child_of_at? h
    rw [putAt_cons hchild]
    cases other with
    | nil => exact absurd List.nil_prefix hbelow
    | cons name' rest' =>
      rw [at?, at?, childNamed?_putChild]
      by_cases hname : name' = name
      · subst hname
        rw [List.cons_prefix_cons, and_iff_right rfl] at habove hbelow
        rw [if_pos rfl, hchild, Option.bind_some, Option.bind_some]
        exact ih hrest habove hbelow
      · rw [if_neg hname]

/-- Below the place, what is new is what is below the new node. -/
theorem at?_putAt_append {tree old : Node} {place : Location} (h : tree.at? place = some old)
    (new : Node) (more : Location) : (tree.putAt place new).at? (place ++ more) = new.at? more := by
  induction place generalizing tree with
  | nil => rfl
  | cons name rest ih =>
    obtain ⟨mode, entries, child, rfl, hchild, hrest⟩ := exists_child_of_at? h
    rw [putAt_cons hchild, List.cons_append, at?, childNamed?_putChild, if_pos rfl, Option.bind_some]
    exact ih hrest

/-! ### Listing a directory -/

/-- Names and kinds of entries. -/
def kinds (entries : List (Name × Node)) : List (Name × Kind) :=
  entries.map fun (name, node) => (name, node.kind)

theorem kinds_skeletonAll (entries : List (Name × Node)) :
    kinds (skeletonAll entries) = kinds entries := by
  induction entries with
  | nil => rfl
  | cons entry entries ih =>
    obtain ⟨name, node⟩ := entry
    show (name, node.skeleton.kind) :: kinds (skeletonAll entries) = (name, node.kind) :: kinds entries
    rw [kind_skeleton, ih]

theorem kinds_eq_nil_iff {entries : List (Name × Node)} : kinds entries = [] ↔ entries = [] :=
  List.map_eq_nil_iff

theorem kinds_eq_cons {entries entries' : List (Name × Node)} {name : Name} {node : Node}
    (h : kinds ((name, node) :: entries) = kinds entries') :
    ∃ node' rest, entries' = (name, node') :: rest ∧ node.kind = node'.kind ∧
      kinds entries = kinds rest := by
  obtain ⟨⟨name', node'⟩, rest, rfl, hentry, hrest⟩ := List.map_eq_cons_iff.1 h.symm
  obtain ⟨rfl, hkind⟩ : name' = name ∧ node'.kind = node.kind := by simpa using hentry
  exact ⟨node', rest, rfl, hkind.symm, hrest.symm⟩

/-- Entries that look the same have nodes of the same kinds. -/
theorem kind_childNamed?_eq {entries entries' : List (Name × Node)}
    (h : kinds entries = kinds entries') (name : Name) :
    (childNamed? entries name).map kind = (childNamed? entries' name).map kind := by
  induction entries generalizing entries' with
  | nil =>
    obtain rfl : entries' = [] := kinds_eq_nil_iff.1 h.symm
    rfl
  | cons entry entries ih =>
    obtain ⟨first, node⟩ := entry
    obtain ⟨node', rest, rfl, hkind, hrest⟩ := kinds_eq_cons h
    rw [childNamed?_cons, childNamed?_cons]
    split
    · rw [Option.map_some, Option.map_some, hkind]
    · exact ih hrest

/-- And they are listed the same. -/
theorem kinds_listed {entries entries' : List (Name × Node)} (h : kinds entries = kinds entries') :
    kinds (listed entries) = kinds (listed entries') := by
  induction entries generalizing entries' with
  | nil =>
    obtain rfl : entries' = [] := kinds_eq_nil_iff.1 h.symm
    rfl
  | cons entry entries ih =>
    obtain ⟨first, node⟩ := entry
    obtain ⟨node', rest, rfl, hkind, hrest⟩ := kinds_eq_cons h
    have hothers (l : List (Name × Node)) : kinds (l.filter fun other => other.1 ≠ first) =
        (kinds l).filter fun other => other.1 ≠ first := by
      rw [kinds, kinds, List.filter_map]
      rfl
    have hfiltered : kinds ((listed entries).filter fun other => other.1 ≠ first) =
        kinds ((listed rest).filter fun other => other.1 ≠ first) := by
      rw [hothers, hothers, ih hrest]
    rw [listed, listed]
    split
    · show (first, node.kind) :: kinds _ = (first, node'.kind) :: kinds _
      rw [hkind, hfiltered]
    · exact hfiltered

/-! ### Counting nodes -/

mutual

theorem count_skeleton (node : Node) : node.skeleton.count = node.count := by
  cases node with
  | file mode content => rfl
  | link target => rfl
  | directory mode entries => simp only [skeleton, count, countAll_skeletonAll entries]

theorem countAll_skeletonAll (entries : List (Name × Node)) :
    countAll (skeletonAll entries) = countAll entries := by
  cases entries with
  | nil => rfl
  | cons entry rest =>
    rw [skeletonAll, countAll, countAll, countEntry_skeletonEntry entry, countAll_skeletonAll rest]

theorem countEntry_skeletonEntry (entry : Name × Node) :
    countEntry (skeletonEntry entry) = countEntry entry := by
  obtain ⟨name, node⟩ := entry
  simp only [skeletonEntry, countEntry, count_skeleton node]

end

end Node

namespace FileSystem

/-- The two file systems differ at most in the contents of their files. -/
structure SameShape (fs fs' : FileSystem) : Prop where
  skeleton : fs.tree.skeleton = fs'.tree.skeleton
  here : fs.here = fs'.here
  writeLimit : fs.writeLimit = fs'.writeLimit

variable {fs fs' fs'' : FileSystem} {path : Path}

theorem SameShape.refl (fs : FileSystem) : SameShape fs fs :=
  ⟨rfl, rfl, rfl⟩

theorem SameShape.symm (h : SameShape fs fs') : SameShape fs' fs :=
  ⟨h.skeleton.symm, h.here.symm, h.writeLimit.symm⟩

theorem SameShape.trans (h : SameShape fs fs') (h' : SameShape fs' fs'') : SameShape fs fs'' :=
  ⟨h.skeleton.trans h'.skeleton, h.here.trans h'.here, h.writeLimit.trans h'.writeLimit⟩

theorem SameShape.signposts (h : SameShape fs fs') : SameSignposts fs fs' := by
  refine ⟨fun place => ?_, h.here⟩
  rw [← fs.tree.sameSignposts_skeleton, h.skeleton, fs'.tree.sameSignposts_skeleton]

theorem SameShape.locate_eq (h : SameShape fs fs') (path : Path) (follow : Bool) :
    fs.locate path follow = fs'.locate path follow :=
  h.signposts.locate_eq path follow

/-- At a location both have nothing, or nodes of one skeleton. -/
theorem SameShape.at?_cases (h : SameShape fs fs') (location : Location) :
    (fs.tree.at? location = none ∧ fs'.tree.at? location = none) ∨
      ∃ node node', fs.tree.at? location = some node ∧ fs'.tree.at? location = some node' ∧
        node.skeleton = node'.skeleton := by
  refine Node.map_eq_cases ?_
  rw [← Node.at?_skeleton, ← Node.at?_skeleton, h.skeleton]

theorem SameShape.node_cases (h : SameShape fs fs') (path : Path) (follow : Bool) :
    (∃ cause, fs.node path follow = .error cause ∧ fs'.node path follow = .error cause) ∨
      ∃ node node', fs.node path follow = .ok node ∧ fs'.node path follow = .ok node' ∧
        node.skeleton = node'.skeleton := by
  unfold node
  rw [h.locate_eq path follow]
  cases fs'.locate path follow with
  | error cause => exact .inl ⟨cause, rfl, rfl⟩
  | ok location =>
    rcases h.at?_cases location with ⟨hnone, hnone'⟩ | ⟨node, node', hnode, hnode', heq⟩
    · simp [bind, Except.bind, hnone, hnone']
    · simp [bind, Except.bind, hnode, hnode', heq]

theorem SameShape.kind_eq (h : SameShape fs fs') (path : Path) : fs.kind path = fs'.kind path :=
  h.signposts.kind_eq path

theorem SameShape.kindBehindLinks_eq (h : SameShape fs fs') (path : Path) :
    fs.kindBehindLinks path = fs'.kindBehindLinks path :=
  h.signposts.kindBehindLinks_eq path

/-- A directory is listed if it may be read. -/
theorem entries_of_node {mode : Mode} {nodes : List (Name × Node)}
    (h : fs.node path true = .ok (.directory mode nodes)) :
    fs.entries path =
      if mode.read then .ok (Node.kinds (listed nodes)) else .error .permissionDenied := by
  simp only [entries, bind, Except.bind, h]
  rfl

theorem SameShape.entries_eq (h : SameShape fs fs') (path : Path) :
    fs.entries path = fs'.entries path := by
  rcases h.node_cases path true with ⟨cause, hnode, hnode'⟩ | ⟨node, node', hnode, hnode', heq⟩
  · simp only [entries, bind, Except.bind, hnode, hnode']
  · rcases Node.skeleton_eq_cases heq with ⟨mode, content, content', rfl, rfl⟩ |
      ⟨mode, nodes, nodes', rfl, rfl, hnodes⟩ | ⟨target, rfl, rfl⟩
    · simp only [entries, bind, Except.bind, hnode, hnode']
    · have hkinds : Node.kinds nodes = Node.kinds nodes' := by
        rw [← Node.kinds_skeletonAll, hnodes, Node.kinds_skeletonAll]
      rw [entries_of_node hnode, entries_of_node hnode', Node.kinds_listed hkinds]
    · simp only [entries, bind, Except.bind, hnode, hnode']

end FileSystem
end BackingField
