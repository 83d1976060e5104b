import BackingField.Proofs.FileSystem.Paths
import BackingField.Proofs.FileSystem.Shape
import BackingField.Settings
import Mathlib.Data.List.Induction

/-!
# What directories that are left out can hide

Below some root, a place is hidden if it is or lies in a directory that is left out
(`Node.Hidden`).  Two trees that look the same at all places that are not hidden
(`FileSystem.AlikeOutside`) hide the same places.  At every name a path is then followed alike in
both, be it the directory itself, the one above, or an entry (`FileSystem.LeadAlike`).  So a path that
is not followed through a hidden place leads to the same location in both
(`FileSystem.AlikeOutside.locate_eq`).
-/

namespace BackingField

/-- What can be seen of a node without a look into anything in it. -/
inductive Face where
  | file (mode : Mode) (content : Bytes)
  | directory (mode : Mode) (entries : List (Name × Kind))
  | link (target : Path)

namespace Node

/-- What can be seen of a node. -/
def face : Node → Face
  | file mode content => .file mode content
  | directory mode entries => .directory mode (kinds entries)
  | link target => .link target

/-- A directory somewhere below a root has a name that is left out. -/
def Excluded (settings : Settings) (tree : Node) (root place : Location) : Prop :=
  ∃ above name mode entries, place = root ++ above ++ [name] ∧ settings.prunes name = true ∧
    tree.at? place = some (.directory mode entries)

/-- A place is such a directory or lies in one. -/
def Hidden (settings : Settings) (tree : Node) (root place : Location) : Prop :=
  ∃ excluded, tree.Excluded settings root excluded ∧ excluded <+: place

/-- Names that are followed from a directory pass a place: one of them is looked up there.  Links
are followed wherever they stand, and modes do not count. -/
inductive Passes (tree : Node) : Location → List Name → Location → Prop where
  | here (place : Location) (name : Name) (rest : List Name) : Passes tree place (name :: rest) place
  | self {here : Location} {rest : List Name} {place : Location} :
      Passes tree here rest place → Passes tree here (Name.self :: rest) place
  | parent {here : Location} {rest : List Name} {place : Location} :
      Passes tree here.dropLast rest place → Passes tree here (Name.parent :: rest) place
  | directory {here : Location} {name : Name} {rest : List Name} {place : Location} {mode : Mode}
      {entries : List (Name × Node)} :
      name ≠ Name.self → name ≠ Name.parent →
      tree.at? (here ++ [name]) = some (.directory mode entries) →
      Passes tree (here ++ [name]) rest place → Passes tree here (name :: rest) place
  | link {here : Location} {name : Name} {rest : List Name} {place : Location} {target : Path} :
      name ≠ Name.self → name ≠ Name.parent → tree.at? (here ++ [name]) = some (.link target) →
      Passes tree (Path.origin here target) (Path.names target ++ rest) place →
      Passes tree here (name :: rest) place

/-! ### Faces -/

theorem exists_eq_directory {node : Node} (h : node.kind = .directory) :
    ∃ mode entries, node = directory mode entries := by
  cases node with
  | file mode content => simp [kind] at h
  | directory mode entries => exact ⟨mode, entries, rfl⟩
  | link target => simp [kind] at h

/-- Nodes that look the same are of one kind, and are the same but for what is in a directory. -/
theorem face_eq_cases {node node' : Node} (h : node.face = node'.face) :
    (∃ mode content, node = file mode content ∧ node' = file mode content) ∨
      (∃ mode entries entries', node = directory mode entries ∧ node' = directory mode entries' ∧
        kinds entries = kinds entries') ∨
      ∃ target, node = link target ∧ node' = link target := by
  cases node with
  | file mode content =>
    cases node' with
    | file mode' content' =>
      obtain ⟨rfl, rfl⟩ : mode = mode' ∧ content = content' := by simpa [face] using h
      exact .inl ⟨mode, content, rfl, rfl⟩
    | directory mode' entries' => simp [face] at h
    | link target' => simp [face] at h
  | directory mode entries =>
    cases node' with
    | file mode' content' => simp [face] at h
    | directory mode' entries' =>
      obtain ⟨rfl, hkinds⟩ : mode = mode' ∧ kinds entries = kinds entries' := by
        simpa [face] using h
      exact .inr (.inl ⟨mode, entries, entries', rfl, rfl, hkinds⟩)
    | link target' => simp [face] at h
  | link target =>
    cases node' with
    | file mode' content' => simp [face] at h
    | directory mode' entries' => simp [face] at h
    | link target' =>
      obtain rfl : target = target' := by simpa [face] using h
      exact .inr (.inr ⟨target, rfl, rfl⟩)

theorem kinds_putChild {entries : List (Name × Node)} {name : Name} {old new : Node}
    (hold : childNamed? entries name = some old) (hkind : new.kind = old.kind) :
    kinds (putChild entries name new) = kinds entries := by
  induction entries with
  | nil => simp [childNamed?] at hold
  | cons entry entries ih =>
    obtain ⟨first, node⟩ := entry
    rw [childNamed?_cons] at hold
    rw [putChild]
    by_cases hname : first = name
    · obtain rfl : node = old := by simpa [hname] using hold
      rw [if_pos hname, hname]
      show (name, new.kind) :: kinds entries = (name, node.kind) :: kinds entries
      rw [hkind]
    · rw [if_neg hname] at hold ⊢
      exact congrArg (List.cons (first, node.kind)) (ih hold)

/-- A node put in the place of another of its kind is seen only there and below. -/
theorem face_putAt {tree old new : Node} {place : Location} (hold : tree.at? place = some old)
    (hkind : new.kind = old.kind) {other : Location} (hother : ¬ place <+: other) :
    ((tree.putAt place new).at? other).map face = (tree.at? other).map face := by
  induction place generalizing tree other with
  | nil => exact absurd List.nil_prefix hother
  | cons name rest ih =>
    obtain ⟨mode, entries, child, rfl, hchild, hrest⟩ := exists_child_of_at? hold
    rw [putAt_cons hchild]
    cases other with
    | nil =>
      have hsame : (child.putAt rest new).kind = child.kind := by
        cases rest with
        | nil =>
          obtain rfl : child = old := Option.some.inj hrest
          exact hkind
        | cons name' rest' =>
          obtain ⟨mode', entries', child', rfl, hchild', -⟩ := exists_child_of_at? hrest
          rw [putAt_cons hchild']
          rfl
      show some (Face.directory mode (kinds _)) = some (Face.directory mode (kinds _))
      rw [kinds_putChild hchild hsame]
    | cons name' rest' =>
      rw [at?, at?, childNamed?_putChild]
      by_cases hname : name' = name
      · subst hname
        rw [if_pos rfl, hchild, Option.bind_some, Option.bind_some]
        exact ih hrest fun hle => hother (List.cons_prefix_cons.2 ⟨rfl, hle⟩)
      · rw [if_neg hname]

/-! ### Hidden places -/

section Hidden

variable {settings : Settings} {tree : Node} {root place : Location}

theorem Excluded.hidden (h : tree.Excluded settings root place) : tree.Hidden settings root place :=
  ⟨place, h, List.prefix_refl place⟩

/-- What is hidden lies below the root. -/
theorem Hidden.length_lt (h : tree.Hidden settings root place) : root.length < place.length := by
  obtain ⟨excluded, ⟨above, name, mode, entries, rfl, -, -⟩, hle⟩ := h
  have hlength := hle.length_le
  simp only [List.length_append, List.length_singleton] at hlength
  omega

theorem hidden_concat_iff {name : Name} : tree.Hidden settings root (place ++ [name]) ↔
    tree.Hidden settings root place ∨ tree.Excluded settings root (place ++ [name]) := by
  constructor
  · rintro ⟨excluded, hexcluded, hle⟩
    rcases List.prefix_concat_iff.1 hle with rfl | hle
    · exact .inr hexcluded
    · exact .inl ⟨excluded, hexcluded, hle⟩
  · rintro (⟨excluded, hexcluded, hle⟩ | hexcluded)
    · exact ⟨excluded, hexcluded, hle.trans (List.prefix_append place [name])⟩
    · exact hexcluded.hidden

/-- An entry is not hidden if its directory is not, unless it is a directory that is left out. -/
theorem not_hidden_concat {name : Name} {child : Node} (h : ¬ tree.Hidden settings root place)
    (hchild : tree.at? (place ++ [name]) = some child)
    (hkept : child.kind = .directory → settings.prunes name = false) :
    ¬ tree.Hidden settings root (place ++ [name]) := by
  rw [hidden_concat_iff]
  rintro (hhidden | ⟨above, name', mode, entries, hplace, hprunes, hat⟩)
  · exact h hhidden
  · obtain rfl : name = name' := (List.append_inj' hplace rfl).2 |> List.singleton_inj.1
    obtain rfl : child = .directory mode entries := by simpa [hchild] using hat
    rw [hkept rfl] at hprunes
    exact Bool.false_ne_true hprunes

/-- Names that are followed from a directory pass no hidden place. -/
def Clear (settings : Settings) (tree : Node) (root here : Location) (names : List Name) : Prop :=
  ∀ place, tree.Passes here names place → ¬ tree.Hidden settings root place

namespace Clear

variable {here : Location} {name : Name} {rest : List Name}

theorem not_hidden (h : tree.Clear settings root here (name :: rest)) :
    ¬ tree.Hidden settings root here :=
  h here (.here here name rest)

theorem self (h : tree.Clear settings root here (Name.self :: rest)) :
    tree.Clear settings root here rest :=
  fun place hplace => h place (.self hplace)

theorem parent (h : tree.Clear settings root here (Name.parent :: rest)) :
    tree.Clear settings root here.dropLast rest :=
  fun place hplace => h place (.parent hplace)

theorem directory {mode : Mode} {entries : List (Name × Node)}
    (h : tree.Clear settings root here (name :: rest)) (hself : name ≠ Name.self)
    (hparent : name ≠ Name.parent)
    (hchild : tree.at? (here ++ [name]) = some (.directory mode entries)) :
    tree.Clear settings root (here ++ [name]) rest :=
  fun place hplace => h place (.directory hself hparent hchild hplace)

theorem link {target : Path} (h : tree.Clear settings root here (name :: rest))
    (hself : name ≠ Name.self) (hparent : name ≠ Name.parent)
    (hchild : tree.at? (here ++ [name]) = some (.link target)) :
    tree.Clear settings root (Path.origin here target) (Path.names target ++ rest) :=
  fun place hplace => h place (.link hself hparent hchild hplace)

end Clear
end Hidden
end Node

namespace FileSystem

/-- Two file systems look the same, except for directories below a root that are left out.  These
must be there in both, but their modes and everything in them may differ. -/
structure AlikeOutside (settings : Settings) (root : Location) (fs fs' : FileSystem) : Prop where
  face : ∀ place, ¬ fs.tree.Hidden settings root place →
    (fs.tree.at? place).map Node.face = (fs'.tree.at? place).map Node.face
  here : fs.here = fs'.here
  writeLimit : fs.writeLimit = fs'.writeLimit

/-- At a place both have nodes of one kind, or nothing. -/
def SameKindAt (fs fs' : FileSystem) (place : Location) : Prop :=
  (fs.tree.at? place).map Node.kind = (fs'.tree.at? place).map Node.kind

namespace AlikeOutside

variable {settings : Settings} {root place : Location} {fs fs' : FileSystem}

/-- Where nothing is hidden, both have nothing, or nodes that look the same. -/
theorem at?_cases (h : AlikeOutside settings root fs fs')
    (hplace : ¬ fs.tree.Hidden settings root place) :
    (fs.tree.at? place = none ∧ fs'.tree.at? place = none) ∨
      ∃ node node', fs.tree.at? place = some node ∧ fs'.tree.at? place = some node' ∧
        node.face = node'.face :=
  Node.map_eq_cases (h.face place hplace)

theorem sameKindAt (h : AlikeOutside settings root fs fs')
    (hplace : ¬ fs.tree.Hidden settings root place) : SameKindAt fs fs' place := by
  unfold SameKindAt
  rcases h.at?_cases hplace with ⟨hnone, hnone'⟩ | ⟨node, node', hnode, hnode', hface⟩
  · rw [hnone, hnone']
  · rw [hnode, hnode']
    rcases Node.face_eq_cases hface with ⟨mode, content, rfl, rfl⟩ |
      ⟨mode, entries, entries', rfl, rfl, -⟩ | ⟨target, rfl, rfl⟩
    · rfl
    · rfl
    · rfl

/-- Also of a directory that is left out both show the kind, in the directory that holds it. -/
theorem sameKindAt_concat (h : AlikeOutside settings root fs fs')
    (hplace : ¬ fs.tree.Hidden settings root place) (name : Name) :
    SameKindAt fs fs' (place ++ [name]) := by
  unfold SameKindAt
  rcases h.at?_cases hplace with ⟨hnone, hnone'⟩ | ⟨node, node', hnode, hnode', hface⟩
  · rw [Node.at?_append, Node.at?_append, hnone, hnone']
  · rcases Node.face_eq_cases hface with ⟨mode, content, rfl, rfl⟩ |
      ⟨mode, entries, entries', rfl, rfl, hkinds⟩ | ⟨target, rfl, rfl⟩
    · rw [Node.at?_append, Node.at?_append, hnode, hnode']
    · rw [Node.at?_concat hnode, Node.at?_concat hnode']
      exact Node.kind_childNamed?_eq hkinds name
    · rw [Node.at?_append, Node.at?_append, hnode, hnode']

/-- Both have the same directories that are left out, as far as these do not lie in one another. -/
theorem excluded_of_excluded (h : AlikeOutside settings root fs fs')
    (hplace : ¬ fs.tree.Hidden settings root place) {name : Name}
    (hexcluded : fs'.tree.Excluded settings root (place ++ [name])) :
    fs.tree.Excluded settings root (place ++ [name]) := by
  obtain ⟨above, name', mode, entries, hname, hprunes, hat⟩ := hexcluded
  have hkind := h.sameKindAt_concat hplace name
  rw [SameKindAt, hat] at hkind
  obtain ⟨node, hnode, hdirectory⟩ := Option.map_eq_some_iff.1 hkind
  obtain ⟨mode', entries', rfl⟩ := Node.exists_eq_directory hdirectory
  exact ⟨above, name', mode', entries', hname, hprunes, hnode⟩

/-- Hence they hide the same places. -/
theorem hidden_of_hidden (h : AlikeOutside settings root fs fs')
    (hhidden : fs'.tree.Hidden settings root place) : fs.tree.Hidden settings root place := by
  -- By induction on the place: it lies in a hidden one, or is one that both trees leave out.
  induction place using List.reverseRecOn with
  | nil => simpa using hhidden.length_lt
  | append_singleton place name ih =>
    rw [Node.hidden_concat_iff]
    by_cases hplace : fs.tree.Hidden settings root place
    · exact .inl hplace
    · rcases Node.hidden_concat_iff.1 hhidden with habove | hexcluded
      · exact .inl (ih habove)
      · exact .inr (h.excluded_of_excluded hplace hexcluded)

/-- A name has no entry in both, or both have directories, or the same file or link. -/
theorem child_cases (h : AlikeOutside settings root fs fs')
    (hplace : ¬ fs.tree.Hidden settings root place) {mode mode' : Mode}
    {entries entries' : List (Name × Node)}
    (hnode : fs.tree.at? place = some (.directory mode entries))
    (hnode' : fs'.tree.at? place = some (.directory mode' entries')) (name : Name) :
    (childNamed? entries name = none ∧ childNamed? entries' name = none) ∨
      (∃ mode mode' nodes nodes', childNamed? entries name = some (.directory mode nodes) ∧
        childNamed? entries' name = some (.directory mode' nodes')) ∨
      (∃ mode content, childNamed? entries name = some (.file mode content) ∧
        childNamed? entries' name = some (.file mode content)) ∨
      ∃ target, childNamed? entries name = some (.link target) ∧
        childNamed? entries' name = some (.link target) := by
  have hsame := h.sameKindAt_concat hplace name
  rw [SameKindAt, Node.at?_concat hnode, Node.at?_concat hnode'] at hsame
  cases hchild : childNamed? entries name with
  | none =>
    rw [hchild] at hsame
    exact .inl ⟨rfl, by simpa using hsame.symm⟩
  | some child =>
    rw [hchild] at hsame
    obtain ⟨child', hchild', hkind⟩ := Option.map_eq_some_iff.1 hsame.symm
    rw [hchild']
    by_cases hdirectory : child.kind = .directory
    · obtain ⟨mode, nodes, rfl⟩ := Node.exists_eq_directory hdirectory
      obtain ⟨mode', nodes', rfl⟩ := Node.exists_eq_directory (hkind.trans hdirectory)
      exact .inr (.inl ⟨mode, mode', nodes, nodes', rfl, rfl⟩)
    · -- Neither a file nor a link hides anything, so all of it can be seen.
      rw [← Node.at?_concat hnode] at hchild
      rw [← Node.at?_concat hnode'] at hchild'
      have hface := h.face (place ++ [name])
        (Node.not_hidden_concat hplace hchild fun habsurd => absurd habsurd hdirectory)
      rw [hchild, hchild'] at hface
      rcases Node.face_eq_cases (Option.some.inj hface) with ⟨mode, content, rfl, rfl⟩ |
        ⟨mode, entries, entries', rfl, rfl, -⟩ | ⟨target, rfl, rfl⟩
      · exact .inr (.inr (.inl ⟨mode, content, rfl, rfl⟩))
      · exact absurd rfl hdirectory
      · exact .inr (.inr (.inr ⟨target, rfl, rfl⟩))

/-- Above a directory there is a directory. -/
theorem sameKindAt_dropLast {mode mode' : Mode} {entries entries' : List (Name × Node)}
    (hnode : fs.tree.at? place = some (.directory mode entries))
    (hnode' : fs'.tree.at? place = some (.directory mode' entries')) :
    SameKindAt fs fs' place.dropLast := by
  have habove (tree : Node) {mode : Mode} {entries : List (Name × Node)}
      (hat : tree.at? place = some (.directory mode entries)) :
      (tree.at? place.dropLast).map Node.kind = some .directory := by
    rcases List.eq_nil_or_concat place with rfl | ⟨above, name, rfl⟩
    · rw [List.dropLast_nil, hat]
      rfl
    · rw [List.concat_eq_append, Node.at?_append] at hat
      obtain ⟨node, hnode, hchild⟩ := Option.bind_eq_some_iff.1 hat
      obtain ⟨mode', entries', child, rfl, -⟩ := Node.exists_child_of_at? hchild
      rw [List.concat_eq_append, List.dropLast_concat, hnode]
      rfl
  rw [SameKindAt, habove _ hnode, habove _ hnode']

/-- Any other directory can stand in the place of one that is left out. -/
theorem of_putAt {mode : Mode} {entries : List (Name × Node)}
    (hexcluded : fs.tree.Excluded settings root place) :
    AlikeOutside settings root fs
      { fs with tree := fs.tree.putAt place (.directory mode entries) } where
  face other hother := by
    have hhidden : ¬ place <+: other := fun hle => hother ⟨place, hexcluded, hle⟩
    obtain ⟨above, name, mode', entries', -, -, hat⟩ := hexcluded
    have hkind : (Node.directory mode entries).kind = (Node.directory mode' entries').kind := rfl
    exact (Node.face_putAt hat hkind hhidden).symm
  here := rfl
  writeLimit := rfl

end AlikeOutside

/-! ### Following a path -/

/-- The same comes out, and at a location that comes out both have nodes of one kind, or nothing. -/
structure LeadAlike (fs fs' : FileSystem) (found found' : Except IoError Location) : Prop where
  eq : found = found'
  sameKindAt : ∀ location, found = .ok location → SameKindAt fs fs' location

namespace LeadAlike

variable {fs fs' : FileSystem}

theorem error (cause : IoError) : LeadAlike fs fs' (.error cause) (.error cause) :=
  ⟨rfl, by simp⟩

theorem ok {location : Location} (h : SameKindAt fs fs' location) :
    LeadAlike fs fs' (.ok location) (.ok location) := by
  refine ⟨rfl, fun location' hlocation => ?_⟩
  obtain rfl : location = location' := Except.ok.inj hlocation
  exact h

end LeadAlike

/-- Two ways to follow names lead alike where no hidden place is passed. -/
def FollowAlike (settings : Settings) (root : Location) (fs fs' : FileSystem)
    (way way' : Lookup → Location → List Name → Except IoError Location) : Prop :=
  ∀ lookup here names, fs.tree.Clear settings root here names → SameKindAt fs fs' here →
    LeadAlike fs fs' (way lookup here names) (way' lookup here names)

/-! What is made of the next name in a directory that both have. -/

section Steps

variable {here : Location} {fs fs' : FileSystem}
  {jump jump' : Lookup → Location → List Name → Except IoError Location} {lookup : Lookup}
  {name : Name} {rest : List Name} {mode : Mode} {entries entries' : List (Name × Node)}
  (hnode : fs.tree.at? here = some (.directory mode entries))
  (hnode' : fs'.tree.at? here = some (.directory mode entries'))

include hnode hnode'

theorem LeadAlike.self (hrest : LeadAlike fs fs' (fs.tree.follow jump lookup here rest)
      (fs'.tree.follow jump' lookup here rest)) :
    LeadAlike fs fs' (fs.tree.follow jump lookup here (Name.self :: rest))
      (fs'.tree.follow jump' lookup here (Name.self :: rest)) := by
  simp only [Node.follow, hnode, hnode', if_true]
  exact rel_ite (fun _ => .error _) fun _ => hrest

theorem LeadAlike.parent (hrest : LeadAlike fs fs' (fs.tree.follow jump lookup here.dropLast rest)
      (fs'.tree.follow jump' lookup here.dropLast rest)) :
    LeadAlike fs fs' (fs.tree.follow jump lookup here (Name.parent :: rest))
      (fs'.tree.follow jump' lookup here (Name.parent :: rest)) := by
  have hself : Name.parent ≠ Name.self := by decide
  simp only [Node.follow, hnode, hnode', if_neg hself, if_true]
  exact rel_ite (fun _ => .error _) fun _ => hrest

variable (hself : name ≠ Name.self) (hparent : name ≠ Name.parent)

include hself hparent

/-- With an entry that is missing or a file a path comes to its end. -/
theorem LeadAlike.stop {child : Option Node} (hchild : childNamed? entries name = child)
    (hchild' : childNamed? entries' name = child)
    (hstop : child = none ∨ ∃ mode content, child = some (.file mode content))
    (hend : SameKindAt fs fs' (here ++ [name])) :
    LeadAlike fs fs' (fs.tree.follow jump lookup here (name :: rest))
      (fs'.tree.follow jump' lookup here (name :: rest)) := by
  simp only [Node.follow, hnode, hnode', if_neg hself, if_neg hparent, hchild, hchild']
  refine rel_ite (fun _ => .error _) fun _ => rel_ite (fun _ => .error _) fun _ => ?_
  rcases hstop with rfl | ⟨mode, content, rfl⟩
  · exact rel_ite (fun _ => .ok hend) fun _ => .error _
  · exact rel_ite (fun _ => .ok hend) fun _ => .error _

theorem LeadAlike.directory {mode mode' : Mode} {nodes nodes' : List (Name × Node)}
    (hchild : childNamed? entries name = some (.directory mode nodes))
    (hchild' : childNamed? entries' name = some (.directory mode' nodes'))
    (hrest : LeadAlike fs fs' (fs.tree.follow jump lookup (here ++ [name]) rest)
      (fs'.tree.follow jump' lookup (here ++ [name]) rest)) :
    LeadAlike fs fs' (fs.tree.follow jump lookup here (name :: rest))
      (fs'.tree.follow jump' lookup here (name :: rest)) := by
  simp only [Node.follow, hnode, hnode', if_neg hself, if_neg hparent, hchild, hchild']
  exact rel_ite (fun _ => .error _) fun _ => rel_ite (fun _ => .error _) fun _ => hrest

/-- A link is followed alike in the middle of a path and at its end, if it is followed there. -/
theorem LeadAlike.link {settings : Settings} {root : Location} {target : Path}
    (hchild : childNamed? entries name = some (.link target))
    (hchild' : childNamed? entries' name = some (.link target))
    (hend : SameKindAt fs fs' (here ++ [name])) (hjump : FollowAlike settings root fs fs' jump jump')
    (hclear : fs.tree.Clear settings root (Path.origin here target) (Path.names target ++ rest))
    (horigin : SameKindAt fs fs' (Path.origin here target)) :
    LeadAlike fs fs' (fs.tree.follow jump lookup here (name :: rest))
      (fs'.tree.follow jump' lookup here (name :: rest)) := by
  simp only [Node.follow, hnode, hnode', if_neg hself, if_neg hparent, hchild, hchild']
  refine rel_ite (fun _ => .error _) fun _ => rel_ite (fun _ => .error _) fun _ =>
    rel_ite (fun hlast => rel_ite (fun _ => ?_) fun _ => .ok hend) fun _ => ?_
  · obtain rfl : rest = [] := by simpa using hlast
    rw [List.append_nil] at hclear
    exact hjump _ _ _ hclear horigin
  · exact hjump _ _ _ hclear horigin

end Steps

namespace AlikeOutside

variable {settings : Settings} {root here : Location} {fs fs' : FileSystem}
  {jump jump' : Lookup → Location → List Name → Except IoError Location}

/-- Where a link is followed from, both have nodes of one kind. -/
theorem sameKindAt_origin (h : AlikeOutside settings root fs fs') (hhere : SameKindAt fs fs' here)
    (target : Path) : SameKindAt fs fs' (Path.origin here target) := by
  unfold Path.origin
  split
  · exact h.sameKindAt fun hhidden => by simpa using hhidden.length_lt
  · exact hhere

/-- A name of an entry leads alike, if what comes behind a directory does. -/
theorem leadAlike_entry (h : AlikeOutside settings root fs fs')
    (hjump : FollowAlike settings root fs fs' jump jump') {lookup : Lookup} {name : Name}
    {rest : List Name} (hself : name ≠ Name.self) (hparent : name ≠ Name.parent)
    (hclear : fs.tree.Clear settings root here (name :: rest)) (hhere : SameKindAt fs fs' here)
    {mode : Mode} {entries entries' : List (Name × Node)}
    (hnode : fs.tree.at? here = some (.directory mode entries))
    (hnode' : fs'.tree.at? here = some (.directory mode entries'))
    (hrest : fs.tree.Clear settings root (here ++ [name]) rest → SameKindAt fs fs' (here ++ [name]) →
      LeadAlike fs fs' (fs.tree.follow jump lookup (here ++ [name]) rest)
        (fs'.tree.follow jump' lookup (here ++ [name]) rest)) :
    LeadAlike fs fs' (fs.tree.follow jump lookup here (name :: rest))
      (fs'.tree.follow jump' lookup here (name :: rest)) := by
  have hsame := h.sameKindAt_concat hclear.not_hidden name
  rcases h.child_cases hclear.not_hidden hnode hnode' name with ⟨hchild, hchild'⟩ |
    ⟨mode, mode', nodes, nodes', hchild, hchild'⟩ | ⟨mode, content, hchild, hchild'⟩ |
    ⟨target, hchild, hchild'⟩
  · exact .stop hnode hnode' hself hparent hchild hchild' (.inl rfl) hsame
  · have hat := Node.at?_append_singleton hnode hchild
    exact .directory hnode hnode' hself hparent hchild hchild'
      (hrest (hclear.directory hself hparent hat) hsame)
  · exact .stop hnode hnode' hself hparent hchild hchild' (.inr ⟨mode, content, rfl⟩) hsame
  · have hat := Node.at?_append_singleton hnode hchild
    exact .link hnode hnode' hself hparent hchild hchild' hsame hjump
      (hclear.link hself hparent hat) (h.sameKindAt_origin hhere target)

/-- Names are followed alike, if links are. -/
theorem followAlike_follow (h : AlikeOutside settings root fs fs')
    (hjump : FollowAlike settings root fs fs' jump jump') :
    FollowAlike settings root fs fs' (fs.tree.follow jump) (fs'.tree.follow jump') := by
  intro lookup here names hclear hhere
  induction names generalizing here with
  | nil => exact .ok hhere
  | cons name rest ih =>
    rcases h.at?_cases hclear.not_hidden with ⟨hnone, hnone'⟩ | ⟨node, node', hnode, hnode', hface⟩
    · simp only [Node.follow, hnone, hnone']
      exact .error _
    rcases Node.face_eq_cases hface with ⟨mode, content, rfl, rfl⟩ |
      ⟨mode, entries, entries', rfl, rfl, -⟩ | ⟨target, rfl, rfl⟩
    · simp only [Node.follow, hnode, hnode']
      exact .error _
    · by_cases hself : name = Name.self
      · subst hself
        exact .self hnode hnode' (ih _ hclear.self hhere)
      by_cases hparent : name = Name.parent
      · subst hparent
        exact .parent hnode hnode' (ih _ hclear.parent (sameKindAt_dropLast hnode hnode'))
      exact h.leadAlike_entry hjump hself hparent hclear hhere hnode hnode' (ih _)
    · simp only [Node.follow, hnode, hnode']
      exact .error _

/-- They are followed alike however many links may be followed. -/
theorem followAlike_locate (h : AlikeOutside settings root fs fs') (links : Nat) :
    FollowAlike settings root fs fs' (fs.tree.locate links) (fs'.tree.locate links) := by
  induction links with
  | zero => exact h.followAlike_follow fun _ _ _ _ _ => .error _
  | succ links ih => exact h.followAlike_follow ih

/-- A path that is not followed through a hidden place leads to the same location in both. -/
theorem locate_eq (h : AlikeOutside settings root fs fs') {path : Path}
    (hclear : fs.tree.Clear settings root (Path.origin fs.here path) (Path.names path))
    (follow : Bool) : LeadAlike fs fs' (fs.locate path follow) (fs'.locate path follow) := by
  unfold locate Node.resolve
  refine rel_ite (fun _ => .error _) fun _ => rel_ite (fun _ => .error _) fun hempty =>
    rel_ite (fun _ => .error _) fun _ => ?_
  have hstart : SameKindAt fs fs' (Path.origin fs.here path) := by
    cases hnames : Path.names path with
    | nil =>
      -- Such a path is the one of the topmost directory.
      rw [Path.origin, if_pos (Path.isAbsolute_of_names (by simpa using hempty) hnames)]
      exact h.sameKindAt fun hhidden => by simpa using hhidden.length_lt
    | cons name rest =>
      rw [hnames] at hclear
      exact h.sameKindAt hclear.not_hidden
  rw [← h.here]
  exact h.followAlike_locate maxLinks _ _ _ hclear hstart

end AlikeOutside
end FileSystem
end BackingField
