import BackingField.Proofs.FileSystem.Paths

/-!
# What a path is followed by

Of a node on the way, a path asks only for its signpost: the kind, for a directory whether it may be
searched, and for a link the target.  So where every path leads is the same in two file systems that
have the same signposts at all places (`FileSystem.SameSignposts.locate_eq`), and so is the kind of
what stands there.  Contents of files, the right to read anything, and the order of entries make no
difference.
-/

namespace BackingField

/-- What a node shows to whoever follows a path. -/
inductive Signpost where
  | file
  /-- A directory, which may be searched or not. -/
  | directory (search : Bool)
  | link (target : Path)

namespace Node

/-- What a node shows to whoever follows a path. -/
def signpost : Node → Signpost
  | file _ _ => .file
  | directory mode _ => .directory mode.search
  | link target => .link target

/-- Two trees show the same at every place. -/
def SameSignposts (tree tree' : Node) : Prop :=
  ∀ place, (tree.at? place).map signpost = (tree'.at? place).map signpost

theorem signpost_eq_cases {node node' : Node} (h : node.signpost = node'.signpost) :
    (∃ mode mode' content content', node = file mode content ∧ node' = file mode' content') ∨
      (∃ mode mode' entries entries', node = directory mode entries ∧
        node' = directory mode' entries' ∧ mode.search = mode'.search) ∨
      ∃ target, node = link target ∧ node' = link target := by
  cases node with
  | file mode content =>
    cases node' with
    | file mode' content' => exact .inl ⟨mode, mode', content, content', rfl, rfl⟩
    | directory mode' entries' => simp [signpost] at h
    | link target' => simp [signpost] at h
  | directory mode entries =>
    cases node' with
    | file mode' content' => simp [signpost] at h
    | directory mode' entries' =>
      exact .inr (.inl ⟨mode, mode', entries, entries', rfl, rfl, by simpa [signpost] using h⟩)
    | link target' => simp [signpost] at h
  | link target =>
    cases node' with
    | file mode' content' => simp [signpost] at h
    | directory mode' entries' => simp [signpost] at h
    | link target' =>
      obtain rfl : target = target' := by simpa [signpost] using h
      exact .inr (.inr ⟨target, rfl, rfl⟩)

theorem kind_eq_of_signpost_eq {node node' : Node} (h : node.signpost = node'.signpost) :
    node.kind = node'.kind := by
  rcases signpost_eq_cases h with ⟨_, _, _, _, rfl, rfl⟩ | ⟨_, _, _, _, rfl, rfl, -⟩ | ⟨_, rfl, rfl⟩
  · rfl
  · rfl
  · rfl

/-- Of two nodes that look the same, if they are there, both are there or neither is. -/
theorem map_eq_cases {α : Type} {look : Node → α} {node? node?' : Option Node}
    (h : node?.map look = node?'.map look) :
    (node? = none ∧ node?' = none) ∨
      ∃ node node', node? = some node ∧ node?' = some node' ∧ look node = look node' := by
  cases node? with
  | none => exact .inl ⟨rfl, by simpa using h.symm⟩
  | some node =>
    obtain ⟨node', hnode', heq⟩ := Option.map_eq_some_iff.1 h.symm
    exact .inr ⟨node, node', rfl, hnode', heq.symm⟩

variable {tree tree' : Node}

theorem SameSignposts.map_kind_eq (h : SameSignposts tree tree') (place : Location) :
    (tree.at? place).map kind = (tree'.at? place).map kind := by
  rcases map_eq_cases (h place) with ⟨hnone, hnone'⟩ | ⟨node, node', hnode, hnode', heq⟩
  · rw [hnone, hnone']
  · rw [hnode, hnode', Option.map_some, Option.map_some, kind_eq_of_signpost_eq heq]

theorem SameSignposts.follow_eq (h : SameSignposts tree tree')
    (jump : Lookup → Location → List Name → Except IoError Location) (lookup : Lookup)
    (here : Location) (names : List Name) :
    tree.follow jump lookup here names = tree'.follow jump lookup here names := by
  induction names generalizing here with
  | nil => rfl
  | cons name rest ih =>
    rw [follow, follow]
    rcases map_eq_cases (h here) with ⟨hnone, hnone'⟩ | ⟨node, node', hnode, hnode', heq⟩
    · rw [hnone, hnone']
    · rcases signpost_eq_cases heq with ⟨_, _, _, _, rfl, rfl⟩ |
        ⟨mode, mode', entries, entries', rfl, rfl, hsearch⟩ | ⟨_, rfl, rfl⟩
      · rw [hnode, hnode']
      · have hchild : (childNamed? entries name).map signpost =
            (childNamed? entries' name).map signpost := by
          rw [← at?_concat hnode, ← at?_concat hnode', h]
        -- The checks at this name are the same, and so is what the name stands for.
        simp only [hnode, hnode', hsearch, ih]
        rcases map_eq_cases hchild with ⟨hnone, hnone'⟩ | ⟨child, child', hchild, hchild', heq⟩
        · rw [hnone, hnone']
        · rcases signpost_eq_cases heq with ⟨_, _, _, _, rfl, rfl⟩ |
            ⟨_, _, _, _, rfl, rfl, -⟩ | ⟨_, rfl, rfl⟩
          · rw [hchild, hchild']
          · rw [hchild, hchild']
          · rw [hchild, hchild']
      · rw [hnode, hnode']

theorem SameSignposts.locate_eq (h : SameSignposts tree tree') (links : Nat) :
    tree.locate links = tree'.locate links := by
  induction links with
  | zero =>
    funext lookup here names
    exact h.follow_eq _ lookup here names
  | succ links ih =>
    funext lookup here names
    rw [locate, locate, ih]
    exact h.follow_eq _ lookup here names

theorem SameSignposts.resolve_eq (h : SameSignposts tree tree') (here : Location) (lookup : Lookup)
    (path : Path) : tree.resolve here lookup path = tree'.resolve here lookup path := by
  simp only [resolve, h.locate_eq]

end Node

namespace FileSystem

/-- At every place the two file systems show the same to whoever follows a path. -/
structure SameSignposts (fs fs' : FileSystem) : Prop where
  tree : Node.SameSignposts fs.tree fs'.tree
  here : fs.here = fs'.here

variable {fs fs' : FileSystem}

theorem SameSignposts.locate_eq (h : SameSignposts fs fs') (path : Path) (follow : Bool) :
    fs.locate path follow = fs'.locate path follow := by
  rw [locate, locate, h.here, h.tree.resolve_eq]

/-- A path leads to nothing in both, or to nodes with the same signpost. -/
theorem SameSignposts.node_cases (h : SameSignposts fs fs') (path : Path) (follow : Bool) :
    (∃ cause, fs.node path follow = .error cause ∧ fs'.node path follow = .error cause) ∨
      ∃ location node node', fs.locate path follow = .ok location ∧
        fs.tree.at? location = some node ∧ fs'.tree.at? location = some node' ∧
        node.signpost = node'.signpost ∧
        fs.node path follow = .ok node ∧ fs'.node path follow = .ok node' := by
  unfold node
  rw [← h.locate_eq path follow]
  cases fs.locate path follow with
  | error cause => exact .inl ⟨cause, rfl, rfl⟩
  | ok location =>
    rcases Node.map_eq_cases (h.tree location) with ⟨hnone, hnone'⟩ |
      ⟨node, node', hnode, hnode', heq⟩
    · simp [bind, Except.bind, hnone, hnone']
    · simp [bind, Except.bind, hnode, hnode', heq]

theorem SameSignposts.map_kind_node_eq (h : SameSignposts fs fs') (path : Path) (follow : Bool) :
    (fs.node path follow).map Node.kind = (fs'.node path follow).map Node.kind := by
  rcases h.node_cases path follow with ⟨cause, hnode, hnode'⟩ |
    ⟨location, node, node', -, -, -, heq, hnode, hnode'⟩
  · rw [hnode, hnode']
  · rw [hnode, hnode']
    exact congrArg Except.ok (Node.kind_eq_of_signpost_eq heq)

theorem SameSignposts.kind_eq (h : SameSignposts fs fs') (path : Path) :
    fs.kind path = fs'.kind path :=
  h.map_kind_node_eq path false

theorem SameSignposts.kindBehindLinks_eq (h : SameSignposts fs fs') (path : Path) :
    fs.kindBehindLinks path = fs'.kindBehindLinks path :=
  h.map_kind_node_eq path true

end FileSystem
end BackingField
