import BackingField.Proofs.Walk.Order

/-!
# A directory that may not be read

Take from a directory that the walk enters the right to be read (`FileSystem.closedAt`).  No path
leads elsewhere for that, and only a visit of this directory comes to something else.  The walk
visits it once.  So up to there the walk goes as before (`Walk.ComesTo.closedAt`), it finds that the
directory is unreadable instead of what lies in it, and behind it the walk goes on as before
(`walk_closedAt`).
-/

namespace BackingField

open Location (Before)

/-- Of two lists of names that part, neither begins the other. -/
theorem Location.Before.not_isPrefix {place place' : Location} (h : Before place place') :
    ¬ place <+: place' ∧ ¬ place' <+: place := by
  obtain ⟨above, name, name', rest, rest', rfl, rfl, hlt⟩ := h
  constructor
  · intro hle
    obtain ⟨rfl, -⟩ := List.cons_prefix_cons.1 ((List.prefix_append_right_inj above).1 hle)
    exact List.lt_irrefl _ hlt
  · intro hle
    obtain ⟨rfl, -⟩ := List.cons_prefix_cons.1 ((List.prefix_append_right_inj above).1 hle)
    exact List.lt_irrefl _ hlt

/-! ### Paths in a directory -/

namespace Path

/-- The path leads on from the directory, over at least one name. -/
def LiesIn (directory path : Path) : Prop :=
  directory.LeadsOnFrom path ∧ directory.namesBelow path ≠ []

instance (directory path : Path) : Decidable (directory.LeadsOnFrom path) :=
  inferInstanceAs (Decidable (_ ∧ _ ∧ ∀ name ∈ directory.namesBelow path, name.isProper = true))

instance (directory path : Path) : Decidable (directory.LiesIn path) :=
  inferInstanceAs (Decidable (_ ∧ _))

theorem LeadsOnFrom.liesIn_join {directory path : Path} {name : Name}
    (h : directory.LeadsOnFrom path) (hpath : path ≠ []) (hname : name.isProper = true) :
    directory.LiesIn (path.join name) := by
  refine ⟨h.join hpath hname, ?_⟩
  rw [h.namesBelow_join hpath hname]
  exact List.append_ne_nil_of_right_ne_nil _ (List.cons_ne_nil name [])

end Path

/-! ### Taking the right to read away -/

namespace FileSystem

/-- The file system when the directory at a place may no longer be read. -/
def closedAt (fs : FileSystem) (place : Location) : FileSystem :=
  match fs.tree.at? place with
  | some (.directory mode entries) =>
      { fs with tree := fs.tree.putAt place (.directory { mode with read := false } entries) }
  | _ => fs

section ClosedAt

variable {fs : FileSystem} {place : Location} {mode : Mode} {nodes : List (Name × Node)}

theorem closedAt_eq (hnode : fs.tree.at? place = some (.directory mode nodes)) :
    fs.closedAt place =
      { fs with tree := fs.tree.putAt place (.directory { mode with read := false } nodes) } := by
  rw [closedAt, hnode]

theorem at?_closedAt (hnode : fs.tree.at? place = some (.directory mode nodes)) :
    (fs.closedAt place).tree.at? place =
      some (.directory { mode with read := false } nodes) := by
  have hnew := Node.at?_putAt_append hnode (.directory { mode with read := false } nodes) []
  rw [List.append_nil] at hnew
  rw [closedAt_eq hnode, hnew]
  rfl

theorem withoutEntries_closedAt (hnode : fs.tree.at? place = some (.directory mode nodes))
    {other : Location} (hother : other ≠ place) :
    (fs.tree.at? other).map Node.withoutEntries =
      ((fs.closedAt place).tree.at? other).map Node.withoutEntries := by
  rw [closedAt_eq hnode]
  exact (Node.withoutEntries_putAt hnode (fun _ => rfl) hother).symm

/-- Nobody who follows a path notices. -/
theorem sameSignposts_closedAt (hnode : fs.tree.at? place = some (.directory mode nodes)) :
    SameSignposts fs (fs.closedAt place) := by
  refine ⟨fun other => ?_, by rw [closedAt_eq hnode]⟩
  by_cases hother : other = place
  · rw [hother, hnode, at?_closedAt hnode]
    rfl
  · exact Node.map_signpost_eq (withoutEntries_closedAt hnode hother)

theorem sameReadAt_closedAt (hnode : fs.tree.at? place = some (.directory mode nodes)) {path : Path}
    (hpath : fs.locate path true ≠ .ok place) : SameReadAt fs (fs.closedAt place) path := by
  intro location mode mode' nodes nodes' hlocate hat hat'
  have hother : location ≠ place := by
    rintro rfl
    exact hpath hlocate
  rw [Node.mode_eq_of_withoutEntries_eq (withoutEntries_closedAt hnode hother) hat hat']

theorem entries_closedAt (hnode : fs.tree.at? place = some (.directory mode nodes)) {path : Path}
    (hpath : fs.locate path true = .ok place) :
    (fs.closedAt place).entries path = .error .permissionDenied := by
  have hpath' : (fs.closedAt place).locate path true = .ok place := by
    rw [← (sameSignposts_closedAt hnode).locate_eq, hpath]
  rw [entries_of_node (node_eq_ok_iff.2 ⟨place, hpath', at?_closedAt hnode⟩)]
  rfl

end ClosedAt
end FileSystem

namespace Walk

open FileSystem

variable {settings : Settings} {fs : FileSystem} {place : Location} {path : Path}

/-! ### How far a walk has come -/

/-- With some items to visit, the walk comes to others by visits of the first item each.  On the way
it finds the given findings. -/
inductive ComesTo (settings : Settings) (fs : FileSystem) :
    List Item → List Finding → List Item → Prop where
  | here (items : List Item) : ComesTo settings fs items [] items
  | step {item : Item} {items later : List Item} {earlier : List Finding} :
      ComesTo settings fs ((visit settings fs item).items ++ items) earlier later →
        ComesTo settings fs (item :: items)
          ((visit settings fs item).finding.toList ++ earlier) later

/-- The walk enters the directory at a place: it comes to its path, with other items to visit behind
it, when it has found the given findings, and it may list the directory. -/
structure Enters (settings : Settings) (fs : FileSystem) (earlier : List Finding) (path : Path)
    (place : Location) (items : List Item) : Prop where
  comes : ComesTo settings fs (start settings) earlier (.directory path :: items)
  leads : fs.locate path true = .ok place
  listed : ∃ entries, fs.entries path = .ok entries

namespace ComesTo

variable {items later : List Item} {earlier : List Finding}

/-- What has been found on the way comes before what is found from there. -/
theorem found_eq (h : ComesTo settings fs items earlier later) :
    found settings fs items = earlier ++ found settings fs later := by
  induction h with
  | here items => rfl
  | step _ ih => rw [found_cons, ih, List.append_assoc]

theorem pairwise {related : Path → Path → Prop} (h : ComesTo settings fs items earlier later)
    (hkept : KeptByVisits settings fs related)
    (hitems : items.Pairwise fun item item' => related item.path item'.path) :
    later.Pairwise fun item item' => related item.path item'.path := by
  induction h with
  | here items => exact hitems
  | step _ ih => exact ih (hkept.pairwise_visit hitems)

/-- What visits hand on is true of all items at the end if it is true of all at the beginning. -/
theorem forall_mem {holds : Item → Prop} (h : ComesTo settings fs items earlier later)
    (hnext : ∀ item, holds item → ∀ next ∈ (visit settings fs item).items, holds next)
    (hitems : ∀ item ∈ items, holds item) : ∀ item ∈ later, holds item := by
  induction h with
  | here items => exact hitems
  | step _ ih =>
    obtain ⟨hfirst, hrest⟩ := List.forall_mem_cons.1 hitems
    refine ih fun next hmem => ?_
    rcases List.mem_append.1 hmem with hnew | hold
    · exact hnext _ hfirst next hnew
    · exact hrest next hold

theorem of_visit {item : Item} {items' : List Item} {finding : Option Finding}
    (hfinding : (visit settings fs item).finding = finding)
    (hitems : (visit settings fs item).items = items')
    (h : ComesTo settings fs (items' ++ items) earlier later) :
    ComesTo settings fs (item :: items) (finding.toList ++ earlier) later := by
  subst hfinding hitems
  exact .step h

end ComesTo

/-! ### Each directory is visited once -/

/-- A visit of a directory leads on to places directly under it. -/
theorem locate_of_visit_directory {next : Item} {target : Location}
    (h : next ∈ (visit settings fs (.directory path)).items)
    (htarget : fs.locate next.path true = .ok target) :
    ∃ location name, fs.locate path true = .ok location ∧ target = location ++ [name] := by
  obtain ⟨location, _, _, name, _, hlocate, hnode, hchild, hproper, hlink, hjoin⟩ :=
    entry_of_visit_directory h
  rw [hjoin] at htarget
  exact ⟨location, name, hlocate, eq_of_locate_join hlocate hnode hchild
    (Name.proper_of_isProper hproper) hlink htarget⟩

/-- An item that does not lead to a place or above it leads on to none that does. -/
theorem not_isPrefix_of_visit {item next : Item} (h : next ∈ (visit settings fs item).items)
    (hitem : ∀ target, fs.locate item.path true = .ok target → ¬ target <+: place) :
    ∀ target, fs.locate next.path true = .ok target → ¬ target <+: place := by
  intro target htarget
  rcases path_of_visit h with hsame | hdirectory
  · exact hitem target (hsame ▸ htarget)
  · rw [hdirectory] at h
    obtain ⟨location, name, hlocate, rfl⟩ := locate_of_visit_directory h htarget
    exact fun hle => hitem location hlocate ((List.prefix_append location [name]).trans hle)

/-- The walk does not come to a directory that it has visited before. -/
theorem locate_ne_of_comesTo {visited : Path} {items later : List Item} {earlier : List Finding}
    (h : ComesTo settings fs ((visit settings fs (.directory visited)).items ++ items) earlier
      (.directory path :: later))
    (hitems : (.directory visited :: items).Pairwise fun item item' => fs.Apart item.path item'.path)
    (hpath : fs.locate path true = .ok place) : fs.locate visited true ≠ .ok place := by
  intro hvisited
  -- After the visit no item leads to the place or above it, and this stays so.
  have hafter : ∀ next ∈ (visit settings fs (.directory visited)).items ++ items, ∀ target,
      fs.locate next.path true = .ok target → ¬ target <+: place := by
    intro next hmem target htarget
    rcases List.mem_append.1 hmem with hnew | hold
    · obtain ⟨location, name, hlocate, rfl⟩ := locate_of_visit_directory hnew htarget
      obtain rfl : place = location := Except.ok.inj (hvisited.symm.trans hlocate)
      exact fun hle => absurd hle.length_le (by simp)
    · exact ((List.pairwise_cons.1 hitems).1 next hold place target hvisited htarget).2
  have hcome := h.forall_mem (fun item hitem next hnext => not_isPrefix_of_visit hnext hitem) hafter
  exact hcome (.directory path) List.mem_cons_self place hpath List.prefix_rfl

/-! ### The walk with and without the right to read -/

section ClosedAt

variable {mode : Mode} {nodes : List (Name × Node)} {items : List Item} {earlier : List Finding}

/-- Only a visit of the directory comes to something else. -/
theorem visit_closedAt (hnode : fs.tree.at? place = some (.directory mode nodes)) {item : Item}
    (hitem : ∀ path, item = .directory path → fs.locate path true ≠ .ok place) :
    visit settings fs item = visit settings (fs.closedAt place) item :=
  visit_eq_of_signposts (sameSignposts_closedAt hnode) fun path hpath =>
    sameReadAt_closedAt hnode (hitem path hpath)

/-- Up to the directory the walk goes as before. -/
theorem ComesTo.closedAt (hnode : fs.tree.at? place = some (.directory mode nodes))
    (hpath : fs.locate path true = .ok place) {later : List Item}
    (h : ComesTo settings fs items earlier (.directory path :: later))
    (hitems : items.Pairwise fun item item' => fs.Apart item.path item'.path) :
    ComesTo settings (fs.closedAt place) items earlier (.directory path :: later) := by
  generalize htarget : Item.directory path :: later = target at h
  induction h with
  | here items => exact .here items
  | @step item items target earlier hrest ih =>
    subst htarget
    have hvisit : visit settings fs item = visit settings (fs.closedAt place) item := by
      refine visit_closedAt hnode ?_
      rintro visited rfl
      exact locate_ne_of_comesTo hrest hitems hpath
    have hlater := ih ((keptByVisits_apartBy settings fs.nests_locate).pairwise_visit hitems) rfl
    rw [hvisit] at hlater ⊢
    exact .step hlater

/-- What lies apart from the directory is found as before. -/
theorem found_closedAt (hnode : fs.tree.at? place = some (.directory mode nodes))
    (hpath : fs.locate path true = .ok place)
    (hitems : ∀ item ∈ items, fs.Apart path item.path) :
    found settings fs items = found settings (fs.closedAt place) items := by
  refine found_congr (fun item => fs.Apart path item.path) (fun item hapart => ?_)
    (fun item hapart next hnext => ?_) hitems
  · refine visit_closedAt hnode ?_
    rintro visited rfl hvisited
    exact (hapart place place hpath hvisited).1 List.prefix_rfl
  · exact (keptByVisits_apartBy settings fs.nests_locate).behind item next hnext path hapart

/-- The directory itself is found to be unreadable. -/
theorem found_directory_closedAt (hnode : fs.tree.at? place = some (.directory mode nodes))
    (hpath : fs.locate path true = .ok place) :
    found settings (fs.closedAt place) [.directory path] =
      [.unreadable path .permissionDenied] := by
  rw [found_cons, visit, entries_closedAt hnode hpath]
  rfl

/-- As long as the directory can be listed, all that is found from it lies in it. -/
theorem liesIn_of_mem_found {entries : List (Name × Kind)} (h : fs.entries path = .ok entries) :
    ∀ finding ∈ found settings fs [.directory path], path.LiesIn finding.path := by
  have hnone : (visit settings fs (.directory path)).finding = none := by
    rw [visit, h]
    rfl
  rw [found_cons, hnone, List.append_nil]
  refine forall_path_findings (fun item hitem next hnext => ?_) fun next hnext => ?_
  · rcases join_of_visit hnext with hsame | ⟨hne, name, hproper, hjoin⟩
    · rwa [hsame]
    · rw [hjoin]
      exact hitem.1.liesIn_join hne hproper
  · obtain ⟨location, _, _, name, _, hlocate, -, -, hproper, -, hjoin⟩ :=
      entry_of_visit_directory hnext
    rw [hjoin]
    exact (Path.leadsOnFrom_self path).liesIn_join (locate_eq_ok hlocate).1 hproper

/-- The two walks, from a directory on that is entered. -/
theorem Enters.walks (h : Enters settings fs earlier path place items) :
    ComesTo settings (fs.closedAt place) (start settings) earlier (.directory path :: items) ∧
      walk settings fs =
        earlier ++ (found settings fs [.directory path] ++ found settings fs items) ∧
      walk settings (fs.closedAt place) =
        earlier ++ .unreadable path .permissionDenied :: found settings fs items := by
  obtain ⟨entries, hentries⟩ := h.listed
  obtain ⟨location, mode, nodes, hlocate, hnode, -⟩ := entries_eq_ok_iff.1 hentries
  obtain rfl : place = location := Except.ok.inj (h.leads.symm.trans hlocate)
  have hcomes := h.comes.closedAt hnode h.leads (List.pairwise_singleton _ _)
  have hapart : ∀ item ∈ items, fs.Apart path item.path := (List.pairwise_cons.1
    (h.comes.pairwise (keptByVisits_apartBy settings fs.nests_locate)
      (List.pairwise_singleton _ _))).1
  refine ⟨hcomes, ?_, ?_⟩
  · rw [walk_eq_found, ← start, h.comes.found_eq, ← found_append, List.singleton_append]
  · rw [walk_eq_found, ← start, hcomes.found_eq, found_closedAt hnode h.leads hapart,
      ← List.singleton_append (l := found settings (fs.closedAt place) items),
      ← found_directory_closedAt hnode h.leads, ← found_append, List.singleton_append]

/-- What is found before the directory and behind it is neither the directory nor in it. -/
theorem Enters.not_leadsOnFrom (h : Enters settings fs earlier path place items) :
    ∀ finding ∈ earlier ++ found settings fs items, ¬ path.LeadsOnFrom finding.path := by
  obtain ⟨-, -, hwalk⟩ := h.walks
  have hordered := pairwise_before_walk settings (fs.closedAt place)
  rw [hwalk, List.pairwise_append, List.pairwise_cons] at hordered
  obtain ⟨-, ⟨hbehind, -⟩, hbefore⟩ := hordered
  intro finding hmem hleads
  have hnames : path.names <+: finding.path.names := ⟨_, hleads.1.symm⟩
  rcases List.mem_append.1 hmem with hearlier | hlater
  · exact (hbefore finding hearlier _ List.mem_cons_self).not_isPrefix.2 hnames
  · exact (hbehind finding hlater).not_isPrefix.1 hnames

end ClosedAt

theorem events_append (found found' : List Finding) :
    events (found ++ found') = events found ++ events found' :=
  List.filterMap_append

/-- Findings outside a directory have candidates outside it. -/
theorem filter_candidates_outside {found : List Finding}
    (h : ∀ finding ∈ found, ¬ path.LiesIn finding.path) :
    (candidates found).filter (fun file => ¬ path.LiesIn file) = candidates found :=
  List.filter_eq_self.2 fun _ hfile => decide_eq_true (h _ (mem_candidates.1 hfile))

/-- Findings in a directory have candidates in it. -/
theorem filter_candidates_inside {found : List Finding}
    (h : ∀ finding ∈ found, path.LiesIn finding.path) :
    (candidates found).filter (fun file => ¬ path.LiesIn file) = [] := by
  refine List.filter_eq_nil_iff.2 fun file hfile hkept => ?_
  exact of_decide_eq_true hkept (h _ (mem_candidates.1 hfile))

end Walk

/-- A directory that may not be read costs only what lies in it.  Take from a directory that the walk
enters the right to be read, and leave all else as it is.  The walk comes to the directory as before,
having found the same.  There it reports the directory once, instead of what it found in it before,
and goes on as before.  So of the candidates exactly those in the directory are missing, and the
reports are the same but for those about what lies in the directory, and the new one in their place.
If the directory is the root, this one report is all. -/
theorem walk_closedAt {settings : Settings} {fs : FileSystem} {earlier : List Walk.Finding}
    {path : Path} {place : Location} {items : List Walk.Item}
    (h : Walk.Enters settings fs earlier path place items) :
    Walk.ComesTo settings (fs.closedAt place) (Walk.start settings) earlier
        (.directory path :: items) ∧
      (∃ inner later, walk settings fs = earlier ++ inner ++ later ∧
        walk settings (fs.closedAt place) =
          earlier ++ [.unreadable path .permissionDenied] ++ later ∧
        (∀ finding ∈ inner, path.LiesIn finding.path) ∧
        (∀ finding ∈ earlier ++ later, ¬ path.LeadsOnFrom finding.path) ∧
        Walk.events (walk settings fs) =
          Walk.events earlier ++ Walk.events inner ++ Walk.events later ∧
        Walk.events (walk settings (fs.closedAt place)) =
          Walk.events earlier ++ [.unreadable path .permissionDenied] ++ Walk.events later) ∧
      Walk.candidates (walk settings (fs.closedAt place)) =
        (Walk.candidates (walk settings fs)).filter (fun file => ¬ path.LiesIn file) ∧
      (path = settings.root →
        walk settings (fs.closedAt place) = [.unreadable path .permissionDenied]) := by
  obtain ⟨hcomes, hwalk, hwalk'⟩ := h.walks
  obtain ⟨entries, hentries⟩ := h.listed
  have hinner : ∀ finding ∈ Walk.found settings fs [.directory path], path.LiesIn finding.path :=
    Walk.liesIn_of_mem_found hentries
  have hothers := h.not_leadsOnFrom
  generalize Walk.found settings fs [.directory path] = inner at hwalk hinner
  generalize Walk.found settings fs items = later at hwalk hwalk' hothers
  rw [← List.append_assoc] at hwalk
  rw [← List.singleton_append, ← List.append_assoc] at hwalk'
  refine ⟨hcomes, ⟨inner, later, hwalk, hwalk', hinner, hothers, ?_, ?_⟩, ?_, ?_⟩
  · simp only [hwalk, Walk.events_append]
  · simp only [hwalk', Walk.events_append]
    rfl
  · have hkept : ∀ finding ∈ earlier ++ later, ¬ path.LiesIn finding.path :=
      fun finding hmem hlies => hothers finding hmem hlies.1
    obtain ⟨hearlier, hlater⟩ := List.forall_mem_append.1 hkept
    simp only [hwalk, hwalk', Walk.candidates_append, List.filter_append,
      Walk.filter_candidates_outside hearlier, Walk.filter_candidates_inside hinner,
      Walk.filter_candidates_outside hlater]
    rfl
  · rintro rfl
    -- All that is found leads on from the root.
    have hnone : earlier ++ later = [] := by
      refine List.eq_nil_iff_forall_not_mem.2 fun finding hmem => hothers finding hmem ?_
      refine Walk.leadsOnFrom_root settings (fs.closedAt place) finding ?_
      rw [hwalk']
      rcases List.mem_append.1 hmem with hearlier | hlater
      · exact List.mem_append_left _ (List.mem_append_left _ hearlier)
      · exact List.mem_append_right _ hlater
    obtain ⟨rfl, rfl⟩ := List.append_eq_nil_iff.1 hnone
    exact hwalk'

/-- A directory to work in, with the directory `a` between two files.  In `a` there is a file, and a
directory that may not be read. -/
def directoryBetweenFiles : FileSystem :=
  let named (name : String) (node : Node) : Name × Node := (Utf8.encode name.toList, node)
  { tree := .directory Mode.newDirectory
      [named "z.cs" (.file Mode.newFile []),
        named "a" (.directory Mode.newDirectory
          [named "x.cs" (.file Mode.newFile []), named "shut" (.directory ⟨false, true, true⟩ [])]),
        named "A.cs" (.file Mode.newFile [])] }

/-- Without the right to read `a`, what is in it is missing, also the report about `a/shut`, and
without the right to read the root, everything is. -/
theorem walk_closedAt_between :
    let path (t : String) := Path.ofText t.toList
    let place := [Utf8.encode "a".toList]
    walk everyCs directoryBetweenFiles =
        [.candidate (path "./A.cs"), .unreadable (path "./a/shut") .permissionDenied,
          .candidate (path "./a/x.cs"), .candidate (path "./z.cs")] ∧
      Walk.Enters everyCs directoryBetweenFiles [.candidate (path "./A.cs")] (path "./a") place
        [.file (path "./z.cs")] ∧
      Walk.candidates (walk everyCs (directoryBetweenFiles.closedAt place)) =
        [path "./A.cs", path "./z.cs"] ∧
      Walk.Enters everyCs directoryBetweenFiles [] (path ".") [] [] ∧
      walk everyCs (directoryBetweenFiles.closedAt []) =
        [.unreadable (path ".") .permissionDenied] := by
  intro path place
  have hfound : walk everyCs directoryBetweenFiles =
      [.candidate (path "./A.cs"), .unreadable (path "./a/shut") .permissionDenied,
        .candidate (path "./a/x.cs"), .candidate (path "./z.cs")] := by decide +kernel
  have hroot : (Walk.visit everyCs directoryBetweenFiles (.root (path "."))).items =
      [.directory (path ".")] := by decide +kernel
  have htop : (Walk.visit everyCs directoryBetweenFiles (.directory (path "."))).items =
      [.file (path "./A.cs"), .directory (path "./a"), .file (path "./z.cs")] := by decide +kernel
  have henters : Walk.Enters everyCs directoryBetweenFiles [.candidate (path "./A.cs")]
      (path "./a") place [.file (path "./z.cs")] :=
    ⟨.of_visit rfl hroot (.of_visit rfl htop (.step (.here _))), rfl, _, rfl⟩
  have hentersRoot : Walk.Enters everyCs directoryBetweenFiles [] (path ".") [] [] :=
    ⟨.of_visit rfl hroot (.here _), rfl, _, rfl⟩
  obtain ⟨-, -, hcandidates, -⟩ := walk_closedAt henters
  obtain ⟨-, -, -, hone⟩ := walk_closedAt hentersRoot
  refine ⟨hfound, henters, ?_, hentersRoot, hone rfl⟩
  rw [hcandidates, hfound]
  decide +kernel

end BackingField
