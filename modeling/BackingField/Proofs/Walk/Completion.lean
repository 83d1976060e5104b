import BackingField.Proofs.Walk.Separation
import Mathlib.Algebra.GroupWithZero.Nat

/-!
# The walk comes to its end

Every item weighs as much as it takes to visit it and all that comes of it, which for a directory is
at most the number of nodes in it (`Walk.Item.weight`).  A visit makes the items lighter
(`Walk.weight_visit`), and all items together are never heavier than the bound on the visits.  So the
bound makes no difference (`Walk.findings_add`), and the walk finds whatever any of its items leads
to (`Walk.mem_findings_iff`).
-/

namespace BackingField

theorem listed_sublist (entries : List (Name × Node)) : (listed entries).Sublist entries := by
  induction entries with
  | nil => exact List.Sublist.refl _
  | cons entry entries ih =>
    have hothers : ((listed entries).filter fun other => other.1 ≠ entry.1).Sublist entries :=
      List.filter_sublist.trans ih
    rw [listed]
    split
    · exact hothers.cons_cons entry
    · exact hothers.cons entry

namespace Node

theorem one_le_count (node : Node) : 1 ≤ node.count := by
  cases node with
  | file mode content => exact Nat.le_refl 1
  | directory mode entries => exact Nat.le_add_left 1 _
  | link target => exact Nat.le_refl 1

theorem countAll_le_of_sublist {entries entries' : List (Name × Node)}
    (h : entries.Sublist entries') : countAll entries ≤ countAll entries' := by
  induction h with
  | slnil => exact Nat.le_refl _
  | cons entry _ ih =>
    rw [countAll]
    omega
  | cons_cons entry _ ih =>
    rw [countAll, countAll]
    omega

theorem count_le_countAll {entries : List (Name × Node)} {name : Name} {child : Node}
    (h : childNamed? entries name = some child) : child.count ≤ countAll entries := by
  induction entries with
  | nil => simp [childNamed?] at h
  | cons entry entries ih =>
    rw [childNamed?_cons] at h
    rw [countAll, countEntry]
    split at h
    · obtain rfl := Option.some.inj h
      omega
    · have hrest := ih h
      omega

/-- No tree has more nodes than one that it is part of. -/
theorem count_le_of_at? {tree node : Node} {location : Location}
    (h : tree.at? location = some node) : node.count ≤ tree.count := by
  induction location generalizing tree with
  | nil =>
    obtain rfl : tree = node := by simpa [at?] using h
    exact Nat.le_refl _
  | cons name rest ih =>
    obtain ⟨mode, entries, child, rfl, hchild, hrest⟩ := exists_child_of_at? h
    have hle := ih hrest
    have hall := count_le_countAll hchild
    rw [count]
    omega

end Node

namespace Walk

variable {settings : Settings} {fs : FileSystem}

/-! ### One visit -/

/-- Number of nodes in what a path leads to, and one if it leads nowhere. -/
def nodesBehind (fs : FileSystem) (path : Path) : Nat :=
  match fs.node path true with
  | .ok node => node.count
  | .error _ => 1

/-- How many visits an item can give rise to. -/
def Item.weight (fs : FileSystem) : Item → Nat
  | root path => nodesBehind fs path + 2
  | linkedRoot path => nodesBehind fs path + 1
  | directory path => nodesBehind fs path
  | file _ => 1

/-- How many visits some items can give rise to. -/
def weight (fs : FileSystem) (items : List Item) : Nat :=
  (items.map (Item.weight fs)).sum

@[simp] theorem weight_nil (fs : FileSystem) : weight fs [] = 0 := rfl

@[simp] theorem weight_cons (fs : FileSystem) (item : Item) (items : List Item) :
    weight fs (item :: items) = item.weight fs + weight fs items :=
  List.sum_cons

@[simp] theorem weight_append (fs : FileSystem) (items items' : List Item) :
    weight fs (items ++ items') = weight fs items + weight fs items' := by
  simp only [weight, List.map_append, List.sum_append]

theorem weight_of_perm {items items' : List Item} (h : items.Perm items') :
    weight fs items = weight fs items' :=
  (h.map (Item.weight fs)).sum_nat

theorem one_le_nodesBehind (fs : FileSystem) (path : Path) : 1 ≤ nodesBehind fs path := by
  unfold nodesBehind
  split
  · exact Node.one_le_count _
  · exact Nat.le_refl 1

/-- The items of a listed directory are entries of it, in some order. -/
theorem visitDirectory_items_perm (settings : Settings) (path : Path) (nodes : List (Name × Node)) :
    (visitDirectory settings path (.ok (Node.kinds (listed nodes)))).items.Perm
      ((listed nodes).filterMap fun entry => itemOf settings path (entry.1, entry.2.kind)) := by
  have hsorted := (sortBy_perm (fun a b : Name × Kind => Name.le a.1 b.1)
    (Node.kinds (listed nodes))).filterMap (itemOf settings path)
  rw [Node.kinds, List.filterMap_map] at hsorted
  exact hsorted

/-- Items that come from entries are together no heavier than the entries. -/
theorem weight_filterMap_le {entries : List (Name × Node)} {itemOf : Name × Node → Option Item}
    (h : ∀ entry ∈ entries, ∀ item, itemOf entry = some item → item.weight fs ≤ entry.2.count) :
    weight fs (entries.filterMap itemOf) ≤ Node.countAll entries := by
  induction entries with
  | nil => exact Nat.le_refl 0
  | cons entry entries ih =>
    obtain ⟨hfirst, hrest⟩ := List.forall_mem_cons.1 h
    have hle := ih hrest
    rw [List.filterMap_cons, Node.countAll, Node.countEntry]
    cases hitem : itemOf entry with
    | none =>
      show weight fs (entries.filterMap itemOf) ≤ _
      omega
    | some item =>
      have hcount := hfirst item hitem
      show weight fs (item :: entries.filterMap itemOf) ≤ _
      rw [weight_cons]
      omega

/-- An item is no heavier than the entry of a directory that it stands for. -/
theorem weight_of_itemOf {path : Path} {location : Location} {mode : Mode}
    {nodes : List (Name × Node)} {name : Name} {child : Node} {item : Item}
    (hlocate : fs.locate path true = .ok location)
    (hnode : fs.tree.at? location = some (.directory mode nodes))
    (hmem : (name, child) ∈ listed nodes)
    (hitem : itemOf settings path (name, child.kind) = some item) :
    item.weight fs ≤ child.count := by
  obtain ⟨hchild, hproper⟩ := mem_listed_iff.1 hmem
  obtain ⟨hpath, hlink⟩ := itemOf_eq_some hitem
  cases item with
  | root path' => cases hkind : child.kind <;> simp [itemOf, hkind] at hitem
  | linkedRoot path' => cases hkind : child.kind <;> simp [itemOf, hkind] at hitem
  | file path' => exact child.one_le_count
  | directory path' =>
    obtain rfl : path' = path.join name := hpath
    rw [Item.weight, nodesBehind]
    -- The path leads to the child or nowhere.
    split
    · next node hfound =>
      obtain ⟨target, htarget, hat⟩ := FileSystem.node_eq_ok_iff.1 hfound
      obtain rfl := FileSystem.eq_of_locate_join hlocate hnode hchild
        (Name.proper_of_isProper hproper) hlink htarget
      rw [Node.at?_append_singleton hnode hchild] at hat
      exact Nat.le_of_eq (congrArg Node.count (Option.some.inj hat).symm)
    · exact child.one_le_count

/-- A visit makes the items lighter. -/
theorem weight_visit (settings : Settings) (fs : FileSystem) (item : Item) :
    weight fs (visit settings fs item).items + 1 ≤ item.weight fs := by
  have hpositive := one_le_nodesBehind fs item.path
  cases item with
  | file path => exact Nat.le_refl 1
  | root path =>
    rcases visit_root_items settings fs path with hitems | hitems | hitems | hitems
    · simp [hitems, Item.weight]
    · simp [hitems, Item.weight]
    · simp [hitems, Item.weight]
    · simp [hitems, Item.weight]
  | linkedRoot path =>
    rcases visit_linkedRoot_items settings fs path with hitems | hitems
    · simp [hitems, Item.weight]
    · simp [hitems, Item.weight]
  | directory path =>
    simp only [Item.path] at hpositive
    simp only [visit, Item.weight]
    cases hentries : fs.entries path with
    | error cause => simpa [visitDirectory] using hpositive
    | ok entries =>
      obtain ⟨location, mode, nodes, hlocate, hnode, -, rfl⟩ := FileSystem.entries_eq_ok_iff.1 hentries
      have hcount : nodesBehind fs path = Node.countAll nodes + 1 := by
        simp [nodesBehind, FileSystem.node_eq_ok_iff.2 ⟨location, hlocate, hnode⟩, Node.count]
      have hitems : weight fs ((listed nodes).filterMap fun entry =>
          itemOf settings path (entry.1, entry.2.kind)) ≤ Node.countAll (listed nodes) :=
        weight_filterMap_le fun entry hmem item hitem => weight_of_itemOf hlocate hnode hmem hitem
      have hlisted := Node.countAll_le_of_sublist (listed_sublist nodes)
      rw [hcount, weight_of_perm (visitDirectory_items_perm settings path nodes)]
      exact Nat.succ_le_succ (Nat.le_trans hitems hlisted)

/-! ### All visits -/

/-- Visits beyond the weight of the items find nothing more. -/
theorem findings_add {visits : Nat} {items : List Item} (h : weight fs items ≤ visits) (more : Nat) :
    findings settings fs (visits + more) items = findings settings fs visits items := by
  induction visits generalizing items with
  | zero =>
    cases items with
    | nil => cases more <;> rfl
    | cons item items =>
      have hlighter := weight_visit settings fs item
      rw [weight_cons] at h
      omega
  | succ visits ih =>
    cases items with
    | nil =>
      rw [Nat.add_right_comm]
      rfl
    | cons item items =>
      have hlighter := weight_visit settings fs item
      rw [weight_cons] at h
      rw [Nat.add_right_comm, findings, findings, ih]
      rw [weight_append]
      omega

theorem weight_start_le (settings : Settings) (fs : FileSystem) :
    weight fs (start settings) ≤ visitBound fs := by
  have hcount : nodesBehind fs settings.root ≤ fs.tree.count := by
    unfold nodesBehind
    split
    · next node hnode =>
      obtain ⟨location, -, hat⟩ := FileSystem.node_eq_ok_iff.1 hnode
      exact Node.count_le_of_at? hat
    · exact fs.tree.one_le_count
  simp only [start, weight_cons, weight_nil, Item.weight, visitBound]
  omega

/-- All that is found from some items, with as many visits as it takes. -/
def found (settings : Settings) (fs : FileSystem) (items : List Item) : List Finding :=
  findings settings fs (weight fs items) items

theorem findings_eq_found {visits : Nat} {items : List Item} (h : weight fs items ≤ visits) :
    findings settings fs visits items = found settings fs items := by
  obtain ⟨more, rfl⟩ := Nat.exists_eq_add_of_le h
  exact findings_add (Nat.le_refl _) more

@[simp] theorem found_nil (settings : Settings) (fs : FileSystem) : found settings fs [] = [] := rfl

/-- The first item is visited, and the items that come of it go in front of the others. -/
theorem found_cons (settings : Settings) (fs : FileSystem) (item : Item) (items : List Item) :
    found settings fs (item :: items) = (visit settings fs item).finding.toList ++
      found settings fs ((visit settings fs item).items ++ items) := by
  have hlighter := weight_visit settings fs item
  have hweight : weight fs ((visit settings fs item).items ++ items) + 1 ≤
      weight fs (item :: items) := by
    rw [weight_append, weight_cons]
    omega
  rw [← findings_eq_found (Nat.le_of_succ_le hweight), ← findings_eq_found
    (Nat.le_refl (weight fs (item :: items)))]
  obtain ⟨visits, hvisits⟩ := Nat.exists_eq_add_of_le' (Nat.le_trans (Nat.le_add_left 1 _) hweight)
  rw [hvisits, findings]
  congr 1
  rw [findings_eq_found (by omega), findings_eq_found (by omega)]

/-- Some items are done with before the items behind them are begun. -/
theorem found_append (settings : Settings) (fs : FileSystem) (items items' : List Item) :
    found settings fs (items ++ items') = found settings fs items ++ found settings fs items' := by
  induction hvisits : weight fs items using Nat.strongRecOn generalizing items with
  | ind visits ih =>
    cases items with
    | nil => rfl
    | cons item items =>
      have hlighter := weight_visit settings fs item
      have hweight : weight fs ((visit settings fs item).items ++ items) < visits := by
        rw [weight_cons] at hvisits
        rw [weight_append]
        omega
      rw [List.cons_append, found_cons, found_cons, ← List.append_assoc, ih _ hweight _ rfl,
        List.append_assoc]

theorem walk_eq_found (settings : Settings) (fs : FileSystem) :
    walk settings fs = found settings fs [.root settings.root] :=
  findings_eq_found (weight_start_le settings fs)

/-- Where the visits of all items that come up are the same in two file systems, so is all that is
found, although the bounds on the visits may differ. -/
theorem found_congr {fs' : FileSystem} (comesUp : Item → Prop)
    (hvisit : ∀ item, comesUp item → visit settings fs item = visit settings fs' item)
    (hnext : ∀ item, comesUp item → ∀ next ∈ (visit settings fs item).items, comesUp next)
    {items : List Item} (h : ∀ item ∈ items, comesUp item) :
    found settings fs items = found settings fs' items := by
  calc found settings fs items
      = findings settings fs (weight fs items + weight fs' items) items :=
        (findings_eq_found (Nat.le_add_right _ _)).symm
    _ = findings settings fs' (weight fs items + weight fs' items) items :=
        findings_congr comesUp hvisit hnext _ h
    _ = found settings fs' items := findings_eq_found (Nat.le_add_left _ _)

/-- What the visit of an item finds, and what the visits of the items after it find. -/
inductive Finds (settings : Settings) (fs : FileSystem) : Item → Finding → Prop where
  | here {item : Item} {finding : Finding} :
      (visit settings fs item).finding = some finding → Finds settings fs item finding
  | later {item next : Item} {finding : Finding} :
      next ∈ (visit settings fs item).items → Finds settings fs next finding →
        Finds settings fs item finding

theorem finds_iff {item : Item} {finding : Finding} :
    Finds settings fs item finding ↔ (visit settings fs item).finding = some finding ∨
      ∃ next ∈ (visit settings fs item).items, Finds settings fs next finding := by
  constructor
  · intro h
    cases h with
    | here hfinding => exact .inl hfinding
    | later hnext hlater => exact .inr ⟨_, hnext, hlater⟩
  · rintro (hfinding | ⟨next, hnext, hlater⟩)
    · exact .here hfinding
    · exact .later hnext hlater

/-- With visits enough, everything is found that an item leads to, and nothing else. -/
theorem mem_findings_iff {visits : Nat} {items : List Item} (h : weight fs items ≤ visits)
    {finding : Finding} : finding ∈ findings settings fs visits items ↔
      ∃ item ∈ items, Finds settings fs item finding := by
  induction visits generalizing items with
  | zero =>
    cases items with
    | nil => simp [findings]
    | cons item items =>
      have hlighter := weight_visit settings fs item
      rw [weight_cons] at h
      omega
  | succ visits ih =>
    cases items with
    | nil => simp [findings]
    | cons item items =>
      have hlighter := weight_visit settings fs item
      have hrest : weight fs ((visit settings fs item).items ++ items) ≤ visits := by
        rw [weight_cons] at h
        rw [weight_append]
        omega
      rw [findings, List.mem_append, ih hrest, Option.mem_toList]
      simp only [List.mem_append, List.mem_cons, or_and_right, exists_or, exists_eq_left,
        @finds_iff settings fs item finding, or_assoc]

end Walk

theorem mem_walk_iff {settings : Settings} {fs : FileSystem} {finding : Walk.Finding} :
    finding ∈ walk settings fs ↔ Walk.Finds settings fs (.root settings.root) finding := by
  rw [walk, Walk.mem_findings_iff (Walk.weight_start_le settings fs)]
  simp [Walk.start]

end BackingField
