import BackingField.Proofs.FileSystem.Paths
import BackingField.Proofs.FileSystem.Shape
import BackingField.Proofs.Sorting
import BackingField.Walk

/-!
# The walk comes upon each file once

The paths of the items still to be visited stand for places of which none lies in another
(`Path.ApartBy`).  A visit keeps it so, because it replaces a directory by entries of it with
different names.  The places can be those that the paths lead to: no two candidates of a walk lead to
the same file (`pairwise_candidates_walk`).  They can also be the names in the paths: no candidate
comes twice (`nodup_candidates_walk`).  A visit asks only for the shape of the tree, so new contents
of files do not change where the walk goes (`visit_eq`).
-/

namespace BackingField

/-! ### The entries of a directory -/

theorem childNamed?_of_mem_listed {entries : List (Name × Node)} {name : Name} {node : Node}
    (h : (name, node) ∈ listed entries) :
    childNamed? entries name = some node ∧ name.isProper = true := by
  induction entries with
  | nil => simp [listed] at h
  | cons entry entries ih =>
    have hothers (h : (name, node) ∈ (listed entries).filter fun other => other.1 ≠ entry.1) :
        childNamed? (entry :: entries) name = some node ∧ name.isProper = true := by
      obtain ⟨hmem, hne⟩ := List.mem_filter.1 h
      have hname : entry.1 ≠ name := by
        rintro rfl
        simp at hne
      obtain ⟨hchild, hproper⟩ := ih hmem
      rw [Node.childNamed?_cons, if_neg hname]
      exact ⟨hchild, hproper⟩
    rw [listed] at h
    split at h
    · next hproper =>
      rcases List.mem_cons.1 h with heq | hmem
      · rw [← heq] at hproper ⊢
        simp [Node.childNamed?_cons, hproper]
      · exact hothers hmem
    · exact hothers h

theorem nodup_names_listed (entries : List (Name × Node)) :
    ((listed entries).map Prod.fst).Nodup := by
  induction entries with
  | nil => simp [listed]
  | cons entry entries ih =>
    have hothers : (((listed entries).filter fun other => other.1 ≠ entry.1).map Prod.fst).Nodup :=
      List.Pairwise.sublist (List.filter_sublist.map Prod.fst) ih
    rw [listed]
    split
    · rw [List.map_cons, List.nodup_cons]
      refine ⟨?_, hothers⟩
      intro hmem
      obtain ⟨other, hother, heq⟩ := List.mem_map.1 hmem
      simpa [heq] using (List.mem_filter.1 hother).2
    · exact hothers

theorem mem_listed_iff {entries : List (Name × Node)} {name : Name} {node : Node} :
    (name, node) ∈ listed entries ↔
      childNamed? entries name = some node ∧ name.isProper = true := by
  refine ⟨childNamed?_of_mem_listed, ?_⟩
  rintro ⟨hchild, hproper⟩
  induction entries with
  | nil => simp [childNamed?] at hchild
  | cons entry entries ih =>
    rw [Node.childNamed?_cons] at hchild
    by_cases hname : entry.1 = name
    · obtain rfl : entry = (name, node) := by
        rw [if_pos hname] at hchild
        exact Prod.ext hname (Option.some.inj hchild)
      simp [listed, hproper]
    · have hother : (name, node) ∈ (listed entries).filter fun other => other.1 ≠ entry.1 := by
        rw [if_neg hname] at hchild
        exact List.mem_filter.2 ⟨ih hchild, by simpa using Ne.symm hname⟩
      rw [listed]
      split
      · exact List.mem_cons_of_mem entry hother
      · exact hother

/-- Two paths that stand for places, neither of which lies in the other. -/
def Path.ApartBy (place : Path → Location → Prop) (path path' : Path) : Prop :=
  ∀ location location', place path location → place path' location' →
    ¬ location <+: location' ∧ ¬ location' <+: location

namespace FileSystem

/-- Neither of the two paths leads to a place in or above the one that the other leads to. -/
def Apart (fs : FileSystem) (path path' : Path) : Prop :=
  ∀ location location', fs.locate path true = .ok location → fs.locate path' true = .ok location' →
    ¬ location <+: location' ∧ ¬ location' <+: location

/-- The place of an entry of a listed directory is directly under the place of the directory. -/
def Nests (fs : FileSystem) (place : Path → Location → Prop) : Prop :=
  ∀ path entries, fs.entries path = .ok entries → ∃ location, place path location ∧
    ∀ name kind, (name, kind) ∈ entries → kind ≠ .link → ∀ target,
      place (path.join name) target → target = location ++ [name]

variable {fs : FileSystem} {path : Path}

/-- A directory is listed if the path leads to it and it may be read. -/
theorem entries_eq_ok_iff {entries : List (Name × Kind)} :
    fs.entries path = .ok entries ↔ ∃ location mode nodes, fs.locate path true = .ok location ∧
      fs.tree.at? location = some (.directory mode nodes) ∧ mode.read = true ∧
      entries = Node.kinds (listed nodes) := by
  constructor
  · intro h
    cases hnode : fs.node path true with
    | error cause => simp [FileSystem.entries, bind, Except.bind, hnode] at h
    | ok node =>
      obtain ⟨location, hlocate, hat⟩ := node_eq_ok_iff.1 hnode
      cases node with
      | file mode content => simp [FileSystem.entries, bind, Except.bind, hnode] at h
      | link target => simp [FileSystem.entries, bind, Except.bind, hnode] at h
      | directory mode nodes =>
        rw [entries_of_node hnode] at h
        split at h
        · next hread => exact ⟨location, mode, nodes, hlocate, hat, hread, (Except.ok.inj h).symm⟩
        · simp at h
  · rintro ⟨location, mode, nodes, hlocate, hat, hread, rfl⟩
    rw [entries_of_node (node_eq_ok_iff.2 ⟨location, hlocate, hat⟩), if_pos hread]

theorem nodup_names_entries {entries : List (Name × Kind)} (h : fs.entries path = .ok entries) :
    (entries.map Prod.fst).Nodup := by
  obtain ⟨location, mode, nodes, -, -, -, rfl⟩ := entries_eq_ok_iff.1 h
  rw [Node.kinds, List.map_map]
  exact nodup_names_listed nodes

/-- What a listed directory holds stands directly under it in the tree. -/
theorem nests_locate (fs : FileSystem) :
    fs.Nests fun path location => fs.locate path true = .ok location := by
  intro path entries h
  obtain ⟨location, mode, nodes, hlocate, hnode, -, rfl⟩ := entries_eq_ok_iff.1 h
  refine ⟨location, hlocate, fun name kind hmem hlink target htarget => ?_⟩
  obtain ⟨⟨name', child⟩, hlisted, heq⟩ := List.mem_map.1 hmem
  obtain ⟨rfl, rfl⟩ : name' = name ∧ child.kind = kind := by simpa using heq
  obtain ⟨hchild, hproper⟩ := childNamed?_of_mem_listed hlisted
  exact eq_of_locate_join hlocate hnode hchild (Name.proper_of_isProper hproper) hlink htarget

/-- Its path has the names of the directory and its own one. -/
theorem nests_names (fs : FileSystem) : fs.Nests fun path location => Path.names path = location := by
  intro path entries h
  obtain ⟨location, mode, nodes, hlocate, -, -, rfl⟩ := entries_eq_ok_iff.1 h
  refine ⟨Path.names path, rfl, fun name kind hmem _ target htarget => ?_⟩
  obtain ⟨⟨name', child⟩, hlisted, heq⟩ := List.mem_map.1 hmem
  obtain ⟨rfl, -⟩ : name' = name ∧ child.kind = kind := by simpa using heq
  obtain ⟨-, hproper⟩ := childNamed?_of_mem_listed hlisted
  rw [← htarget]
  exact Path.names_join (locate_eq_ok hlocate).1 (Name.proper_of_isProper hproper)

end FileSystem

namespace Path.ApartBy

variable {place : Path → Location → Prop} {path path' path'' : Path}

theorem symm (h : ApartBy place path path') : ApartBy place path' path :=
  fun location location' hpath hpath' => (h location' location hpath' hpath).symm

/-- Entries of a directory are apart from everything that the directory is apart from. -/
theorem of_entry {name : Name} (h : ApartBy place path path')
    (hentry : ∀ target, place path'' target →
      ∃ location, place path location ∧ target = location ++ [name]) :
    ApartBy place path'' path' := by
  intro target location' htarget hlocation'
  obtain ⟨location, hlocation, rfl⟩ := hentry target htarget
  obtain ⟨hnot, hnot'⟩ := h location location' hlocation hlocation'
  have hbelow : location <+: location ++ [name] := List.prefix_append location [name]
  constructor
  · intro hle
    exact hnot (hbelow.trans hle)
  · intro hle
    rcases List.prefix_concat_iff.1 hle with heq | hle
    · exact hnot (heq ▸ hbelow)
    · exact hnot' hle

end Path.ApartBy

namespace Walk

open FileSystem
open BackingField.Path (ApartBy)

variable {settings : Settings} {fs fs' : FileSystem} {place : Path → Location → Prop}

/-- The path of an item. -/
def Item.path : Item → Path
  | root path => path
  | linkedRoot path => path
  | directory path => path
  | file path => path

/-- The path of a finding. -/
def Finding.path : Finding → Path
  | candidate path => path
  | unreadable path _ => path

theorem itemOf_eq_some {path : Path} {name : Name} {kind : Kind} {item : Item}
    (h : itemOf settings path (name, kind) = some item) :
    item.path = path.join name ∧ kind ≠ .link := by
  cases kind with
  | file =>
    obtain ⟨-, rfl⟩ : _ ∧ Item.file (path.join name) = item := by simpa [itemOf] using h
    exact ⟨rfl, by simp⟩
  | directory =>
    obtain ⟨-, rfl⟩ : _ ∧ Item.directory (path.join name) = item := by simpa [itemOf] using h
    exact ⟨rfl, by simp⟩
  | link => simp [itemOf] at h

/-! ### One visit -/

/-- The visit of a root leads on to the same path, if at all. -/
theorem visit_root_items (settings : Settings) (fs : FileSystem) (path : Path) :
    (visit settings fs (.root path)).items = [] ∨
      (visit settings fs (.root path)).items = [.directory path] ∨
      (visit settings fs (.root path)).items = [.linkedRoot path] ∨
      (visit settings fs (.root path)).items = [.file path] := by
  rw [visit]
  cases fs.kind path with
  | error cause => exact .inl rfl
  | ok kind =>
    cases kind with
    | directory => exact .inr (.inl rfl)
    | link => exact .inr (.inr (.inl rfl))
    | file =>
      by_cases haccepts : settings.accepts path.lastName = true
      · exact .inr (.inr (.inr (if_pos haccepts)))
      · exact .inl (if_neg haccepts)

theorem visit_linkedRoot_items (settings : Settings) (fs : FileSystem) (path : Path) :
    (visit settings fs (.linkedRoot path)).items = [] ∨
      (visit settings fs (.linkedRoot path)).items = [.directory path] := by
  rw [visit]
  cases fs.kindBehindLinks path with
  | error cause => exact .inl rfl
  | ok kind =>
    cases kind with
    | directory => exact .inr rfl
    | link => exact .inl rfl
    | file => exact .inl rfl

/-- The items of a listed directory are entries of it, with different names. -/
theorem visitDirectory_items (hnests : fs.Nests place) {path : Path} {entries : List (Name × Kind)}
    (h : fs.entries path = .ok entries) :
    ((visitDirectory settings path (.ok entries)).items.Pairwise
        fun item item' => ApartBy place item.path item'.path) ∧
      ∀ item ∈ (visitDirectory settings path (.ok entries)).items, ∀ path',
        ApartBy place path path' → ApartBy place item.path path' := by
  obtain ⟨location, hlocation, hentries⟩ := hnests path entries h
  have hperm : (sortBy (fun a b : Name × Kind => Name.le a.1 b.1) entries).Perm entries :=
    sortBy_perm _ entries
  have hnames : (sortBy (fun a b : Name × Kind => Name.le a.1 b.1) entries).Pairwise
      fun entry entry' => entry.1 ≠ entry'.1 :=
    List.pairwise_map.1 ((hperm.map Prod.fst).nodup_iff.2 (nodup_names_entries h))
  constructor
  · refine List.pairwise_filterMap.2 (hnames.imp_of_mem ?_)
    rintro ⟨name, kind⟩ ⟨name', kind'⟩ hmem hmem' hne item hitem item' hitem'
    obtain ⟨hpath, hlink⟩ := itemOf_eq_some hitem
    obtain ⟨hpath', hlink'⟩ := itemOf_eq_some hitem'
    intro target target' htarget htarget'
    rw [hpath] at htarget
    rw [hpath'] at htarget'
    rw [hentries name kind (hperm.mem_iff.1 hmem) hlink target htarget,
      hentries name' kind' (hperm.mem_iff.1 hmem') hlink' target' htarget']
    -- Both lie one step below the directory, so neither is above the other.
    constructor
    · intro hle
      have hlast := (List.prefix_append_right_inj location).1 hle
      exact hne (by simpa using hlast)
    · intro hle
      have hlast := (List.prefix_append_right_inj location).1 hle
      exact hne (by simpa [eq_comm] using hlast)
  · intro item hmem path' hapart
    obtain ⟨⟨name, kind⟩, hentry, hitem⟩ := List.mem_filterMap.1 hmem
    obtain ⟨hpath, hlink⟩ := itemOf_eq_some hitem
    have hbelow : ∀ target, place (path.join name) target →
        ∃ location, place path location ∧ target = location ++ [name] := by
      intro target htarget
      exact ⟨location, hlocation, hentries name kind (hperm.mem_iff.1 hentry) hlink target htarget⟩
    rw [hpath]
    exact hapart.of_entry hbelow

/-- A visit puts items in the place of the visited one that are apart from each other and from
everything that one was apart from. -/
theorem visit_items (settings : Settings) (hnests : fs.Nests place) (item : Item) :
    ((visit settings fs item).items.Pairwise
        fun item item' => ApartBy place item.path item'.path) ∧
      ∀ next ∈ (visit settings fs item).items, ∀ path', ApartBy place item.path path' →
        ApartBy place next.path path' := by
  -- An item that stands for the same path, or none at all.
  have hsame {path : Path} {items : List Item} (hpath : item.path = path)
      (hitems : items = [] ∨ ∃ next, items = [next] ∧ next.path = path) :
      (items.Pairwise fun item item' => ApartBy place item.path item'.path) ∧
        ∀ next ∈ items, ∀ path', ApartBy place item.path path' →
          ApartBy place next.path path' := by
    rcases hitems with rfl | ⟨next, rfl, hnext⟩
    · simp
    · simp [hpath, hnext]
  cases item with
  | file path => exact hsame rfl (.inl rfl)
  | root path =>
    refine hsame rfl ?_
    rcases visit_root_items settings fs path with hitems | hitems | hitems | hitems
    · exact .inl hitems
    · exact .inr ⟨_, hitems, rfl⟩
    · exact .inr ⟨_, hitems, rfl⟩
    · exact .inr ⟨_, hitems, rfl⟩
  | linkedRoot path =>
    refine hsame rfl ?_
    rcases visit_linkedRoot_items settings fs path with hitems | hitems
    · exact .inl hitems
    · exact .inr ⟨_, hitems, rfl⟩
  | directory path =>
    simp only [visit]
    cases hentries : fs.entries path with
    | error cause => exact hsame rfl (.inl rfl)
    | ok entries => exact visitDirectory_items hnests hentries

/-- A visit finds nothing but what stands at the path of its item, and that is the end of the
item. -/
theorem visit_of_finding {item : Item} {finding : Finding}
    (h : (visit settings fs item).finding = some finding) :
    finding.path = item.path ∧ (visit settings fs item).items = [] := by
  cases item with
  | file path =>
    obtain rfl : .candidate path = finding := by simpa [visit] using h
    exact ⟨rfl, rfl⟩
  | root path =>
    simp only [visit] at h ⊢
    cases hkind : fs.kind path with
    | error cause =>
      obtain rfl : .unreadable path cause = finding := by simpa [visitRoot, hkind] using h
      exact ⟨rfl, rfl⟩
    | ok kind => cases kind <;> simp [visitRoot, hkind] at h
  | linkedRoot path =>
    simp only [visit] at h ⊢
    cases hkind : fs.kindBehindLinks path with
    | error cause =>
      obtain rfl : .unreadable path cause = finding := by simpa [visitLinkedRoot, hkind] using h
      exact ⟨rfl, rfl⟩
    | ok kind => cases kind <;> simp [visitLinkedRoot, hkind] at h
  | directory path =>
    simp only [visit] at h ⊢
    cases hentries : fs.entries path with
    | error cause =>
      obtain rfl : .unreadable path cause = finding := by simpa [visitDirectory, hentries] using h
      exact ⟨rfl, rfl⟩
    | ok entries => simp [visitDirectory, hentries] at h

/-- A visit asks only for the shape of the tree. -/
theorem visit_eq (h : SameShape fs fs') (item : Item) :
    visit settings fs item = visit settings fs' item := by
  cases item with
  | root path => simp only [visit, h.kind_eq]
  | linkedRoot path => simp only [visit, h.kindBehindLinks_eq]
  | directory path => simp only [visit, h.entries_eq]
  | file path => rfl

/-! ### All visits -/

theorem candidates_append (found found' : List Finding) :
    candidates (found ++ found') = candidates found ++ candidates found' :=
  List.filterMap_append

theorem mem_candidates {found : List Finding} {path : Path} :
    path ∈ candidates found ↔ Finding.candidate path ∈ found := by
  unfold candidates
  rw [List.mem_filterMap]
  constructor
  · rintro ⟨finding, hmem, heq⟩
    cases finding with
    | candidate path' =>
      obtain rfl : path' = path := by simpa using heq
      exact hmem
    | unreadable path' cause => simp at heq
  · intro hmem
    exact ⟨_, hmem, rfl⟩

/-- What is true of the paths of all items, and is handed on by visits, is true of all that is
found. -/
theorem forall_path_findings {holds : Path → Prop}
    (hnext : ∀ item, holds item.path → ∀ next ∈ (visit settings fs item).items, holds next.path)
    {visits : Nat} {items : List Item} (h : ∀ item ∈ items, holds item.path) :
    ∀ finding ∈ findings settings fs visits items, holds finding.path := by
  induction visits generalizing items with
  | zero => simp [findings]
  | succ visits ih =>
    cases items with
    | nil => simp [findings]
    | cons item items =>
      obtain ⟨hfirst, hrest⟩ := List.forall_mem_cons.1 h
      intro finding hfinding
      rw [findings] at hfinding
      rcases List.mem_append.1 hfinding with hfound | hlater
      · obtain ⟨hpath, -⟩ := visit_of_finding (Option.mem_toList.1 hfound)
        rw [hpath]
        exact hfirst
      · refine ih (fun next hmem => ?_) finding hlater
        rcases List.mem_append.1 hmem with hnew | hold
        · exact hnext item hfirst next hnew
        · exact hrest next hold

/-- A relation between paths that visits keep: it holds between the items of a visit in their order,
and a visited item hands on to them whatever it is related to. -/
structure KeptByVisits (settings : Settings) (fs : FileSystem) (related : Path → Path → Prop) :
    Prop where
  among : ∀ item, (visit settings fs item).items.Pairwise
    fun next next' => related next.path next'.path
  before : ∀ item, ∀ next ∈ (visit settings fs item).items, ∀ path,
    related item.path path → related next.path path
  behind : ∀ item, ∀ next ∈ (visit settings fs item).items, ∀ path,
    related path item.path → related path next.path

section KeptByVisits

variable {related : Path → Path → Prop}

/-- It holds between the items after a visit if it held before. -/
theorem KeptByVisits.pairwise_visit (h : KeptByVisits settings fs related) {item : Item}
    {items : List Item}
    (hitems : (item :: items).Pairwise fun next next' => related next.path next'.path) :
    ((visit settings fs item).items ++ items).Pairwise
      fun next next' => related next.path next'.path := by
  obtain ⟨hfirst, hrest⟩ := List.pairwise_cons.1 hitems
  refine List.pairwise_append.2 ⟨h.among item, hrest, ?_⟩
  intro next hnext other hother
  exact h.before item next hnext other.path (hfirst other hother)

/-- What is found comes in the order of the items that it is found from. -/
theorem KeptByVisits.pairwise_findings (h : KeptByVisits settings fs related) {visits : Nat}
    {items : List Item} (hitems : items.Pairwise fun next next' => related next.path next'.path) :
    (findings settings fs visits items).Pairwise
      fun finding finding' => related finding.path finding'.path := by
  induction visits generalizing items with
  | zero => simp [findings]
  | succ visits ih =>
    cases items with
    | nil => simp [findings]
    | cons item items =>
      have hlater := ih (h.pairwise_visit hitems)
      rw [findings]
      cases hfinding : (visit settings fs item).finding with
      | none => simpa using hlater
      | some finding =>
        obtain ⟨hpath, hnone⟩ := visit_of_finding hfinding
        refine List.pairwise_cons.2 ⟨?_, hlater⟩
        -- What is found later comes from the items behind this one.
        intro finding' hmem
        rw [hnone, List.nil_append] at hmem
        rw [hpath]
        exact forall_path_findings (fun item hitem next hnext => h.behind item next hnext _ hitem)
          (List.pairwise_cons.1 hitems).1 finding' hmem

end KeptByVisits

theorem keptByVisits_apartBy (settings : Settings) (hnests : fs.Nests place) :
    KeptByVisits settings fs (ApartBy place) where
  among item := (visit_items settings hnests item).1
  before item next hnext path' := (visit_items settings hnests item).2 next hnext path'
  behind item next hnext path' hapart :=
    ((visit_items settings hnests item).2 next hnext path' hapart.symm).symm

/-- The candidates found from items that are apart from each other are so too. -/
theorem pairwise_candidates_findings (hnests : fs.Nests place) {visits : Nat} {items : List Item}
    (h : items.Pairwise fun item item' => ApartBy place item.path item'.path) :
    (candidates (findings settings fs visits items)).Pairwise (ApartBy place) := by
  refine List.pairwise_filterMap.2
    (((keptByVisits_apartBy settings hnests).pairwise_findings h).imp ?_)
  intro finding finding' hapart path hpath path' hpath'
  cases finding with
  | unreadable _ _ => simp at hpath
  | candidate _ =>
    cases finding' with
    | unreadable _ _ => simp at hpath'
    | candidate _ =>
      obtain rfl := Option.some.inj hpath
      obtain rfl := Option.some.inj hpath'
      exact hapart

/-- Where the visits of all items that come up are the same, so is all that is found. -/
theorem findings_congr (comesUp : Item → Prop)
    (hvisit : ∀ item, comesUp item → visit settings fs item = visit settings fs' item)
    (hnext : ∀ item, comesUp item → ∀ next ∈ (visit settings fs item).items, comesUp next)
    (visits : Nat) {items : List Item} (h : ∀ item ∈ items, comesUp item) :
    findings settings fs visits items = findings settings fs' visits items := by
  induction visits generalizing items with
  | zero => rfl
  | succ visits ih =>
    cases items with
    | nil => rfl
    | cons item items =>
      obtain ⟨hfirst, hrest⟩ := List.forall_mem_cons.1 h
      have hlater : ∀ next ∈ (visit settings fs item).items ++ items, comesUp next := by
        intro next hmem
        rcases List.mem_append.1 hmem with hnew | hold
        · exact hnext item hfirst next hnew
        · exact hrest next hold
      rw [findings, findings, ← hvisit item hfirst, ih hlater]

theorem findings_eq (h : SameShape fs fs') (visits : Nat) (items : List Item) :
    findings settings fs visits items = findings settings fs' visits items :=
  findings_congr (fun _ => True) (fun item _ => visit_eq h item) (fun _ _ _ _ => trivial)
    visits fun _ _ => trivial

end Walk

/-- New contents of files change nothing in what a walk finds. -/
theorem walk_eq {fs fs' : FileSystem} (h : FileSystem.SameShape fs fs') (settings : Settings) :
    walk settings fs = walk settings fs' := by
  have hbound : Walk.visitBound fs = Walk.visitBound fs' := by
    rw [Walk.visitBound, Walk.visitBound, ← Node.count_skeleton, h.skeleton, Node.count_skeleton]
  rw [walk, walk, hbound, Walk.findings_eq h]

/-- No two candidates of a walk lead to the same place, or one to a place in another. -/
theorem pairwise_candidates_walk (settings : Settings) (fs : FileSystem) :
    (Walk.candidates (walk settings fs)).Pairwise fs.Apart :=
  Walk.pairwise_candidates_findings fs.nests_locate (List.pairwise_singleton _ _)

/-- No candidate of a walk comes twice. -/
theorem nodup_candidates_walk (settings : Settings) (fs : FileSystem) :
    (Walk.candidates (walk settings fs)).Nodup := by
  have hnames : (Walk.candidates (walk settings fs)).Pairwise
      (Path.ApartBy fun path location => Path.names path = location) :=
    Walk.pairwise_candidates_findings fs.nests_names (List.pairwise_singleton _ _)
  refine hnames.imp ?_
  rintro path _ hapart rfl
  exact (hapart _ _ rfl rfl).1 (List.prefix_refl _)

end BackingField
