import BackingField.FileSystem.Basic

/-!
# The path of an entry of a directory

A path is followed name by name, so a longer path leads on from where its beginning leads
(`Node.locate_append`).  For the entry of a directory this means that its path, put together from the
path of the directory and its name, can lead only to that entry (`FileSystem.eq_of_locate_join`), and
does so if it is not too long and the directory may be searched (`FileSystem.locate_join`).
-/

namespace BackingField

/-! ### The names in a path -/

namespace Name

/-- What a name is like that a path can lead to. -/
structure Proper (name : Name) : Prop where
  ne_nil : name ≠ []
  ne_self : name ≠ self
  ne_parent : name ≠ parent
  slash_not_mem : slash ∉ name
  length_le : name.length ≤ maxLength

theorem proper_of_isProper {name : Name} (h : name.isProper = true) : Proper name := by
  simp only [isProper, Bool.and_eq_true, Bool.not_eq_true', bne_iff_ne, decide_eq_true_eq,
    List.isEmpty_eq_false_iff, List.contains_eq_mem, decide_eq_false_iff_not] at h
  obtain ⟨⟨⟨⟨⟨hne, hself⟩, hparent⟩, hslash⟩, -⟩, hlength⟩ := h
  exact ⟨hne, hself, hparent, hslash, hlength⟩

theorem zero_not_mem_of_isProper {name : Name} (h : name.isProper = true) : 0 ∉ name := by
  simp only [isProper, Bool.and_eq_true, Bool.not_eq_true', List.contains_eq_mem,
    decide_eq_false_iff_not] at h
  exact h.1.2

end Name

namespace Path

open Name (slash)

theorem pieces_ne_nil (p : Path) : pieces p ≠ [] := by
  cases p with
  | nil => simp [pieces]
  | cons b p =>
    rw [pieces]
    split
    · simp
    · split
      · simp
      · simp

theorem pieces_append (p q : Path) : pieces (p ++ slash :: q) = pieces p ++ pieces q := by
  induction p with
  | nil => simp [pieces]
  | cons b p ih =>
    rw [List.cons_append, pieces, pieces, ih]
    by_cases h : b = slash
    · simp [h]
    · cases hpieces : pieces p with
      | nil => exact absurd hpieces (pieces_ne_nil p)
      | cons piece rest => simp [h]

theorem pieces_of_not_mem {p : Path} (h : slash ∉ p) : pieces p = [p] := by
  induction p with
  | nil => rfl
  | cons b p ih =>
    simp only [List.mem_cons, not_or] at h
    rw [pieces, if_neg (Ne.symm h.1), ih h.2]

theorem isAbsolute_of_names {path : Path} (hpath : path ≠ []) (h : names path = []) :
    isAbsolute path = true := by
  cases path with
  | nil => exact absurd rfl hpath
  | cons b rest =>
    by_cases hb : b = slash
    · simp [isAbsolute, hb]
    · cases hpieces : pieces rest with
      | nil => exact absurd hpieces (pieces_ne_nil rest)
      | cons piece more => simp [names, pieces, hb, hpieces] at h

/-- A path and the name of an entry, with the last slash of the path told apart. -/
theorem exists_join_eq {path : Path} (hpath : path ≠ []) (name : Name) :
    ∃ front, path.join name = front ++ slash :: name ∧ names front = names path := by
  obtain ⟨front, b, rfl⟩ : ∃ front b, path = front ++ [b] :=
    ⟨path.dropLast, path.getLast hpath, (List.dropLast_concat_getLast hpath).symm⟩
  by_cases hb : b = slash
  · refine ⟨front, by simp [join, hb], ?_⟩
    rw [hb, names, names, pieces_append]
    simp [pieces]
  · exact ⟨front ++ [b], by simp [join, hb], rfl⟩

theorem names_join {path : Path} {name : Name} (hpath : path ≠ []) (hname : name.Proper) :
    names (path.join name) = names path ++ [name] := by
  obtain ⟨front, hjoin, hnames⟩ := exists_join_eq hpath name
  rw [hjoin, ← hnames, names, names, pieces_append, pieces_of_not_mem hname.slash_not_mem]
  simp [hname.ne_nil]

theorem isAbsolute_join {path : Path} (hpath : path ≠ []) (name : Name) :
    isAbsolute (path.join name) = isAbsolute path := by
  have hhead (more : Path) : (path ++ more).head? = path.head? := by
    cases path with
    | nil => exact absurd rfl hpath
    | cons b path => rfl
  unfold isAbsolute join
  split
  · next hlast => simp at hlast; exact absurd hlast hpath
  · split
    · rw [hhead]
    · rw [hhead]

/-- A path that is put together ends in the name. -/
theorem hasTrailingSlash_join {name : Name} (path : Path) (hname : name.Proper) :
    hasTrailingSlash (path.join name) = false := by
  have hlast (front : Path) : (front ++ name).getLast? = name.getLast? := by
    rw [List.getLast?_append, List.getLast?_eq_some_getLast hname.ne_nil, Option.some_or]
  have hjoin : ∃ front, path.join name = front ++ name := by
    unfold join
    split
    · exact ⟨[], rfl⟩
    · split
      · exact ⟨path, rfl⟩
      · exact ⟨path ++ [slash], by simp⟩
  obtain ⟨front, hfront⟩ := hjoin
  rw [hasTrailingSlash, hfront, hlast, beq_eq_false_iff_ne]
  intro hslash
  exact hname.slash_not_mem (List.mem_of_getLast? hslash)

theorem zero_not_mem_join {path : Path} {name : Name} (hpath : 0 ∉ path) (hname : 0 ∉ name) :
    0 ∉ path.join name := by
  have hslash : (0 : UInt8) ≠ slash := by decide
  unfold join
  split
  · exact hname
  · split
    · simp [hpath, hname]
    · simp [hpath, hname, hslash]

end Path

/-! ### Following a longer path -/

/-- Two choices that are made alike are related if the chosen are. -/
theorem rel_ite {α β : Type} {R : α → β → Prop} {c : Prop} [Decidable c] {a b : α} {a' b' : β}
    (h : c → R a a') (hother : ¬ c → R b b') : R (if c then a else b) (if c then a' else b') := by
  split
  · next hc => exact h hc
  · next hc => exact hother hc

/-- The first lookup follows a link at the end of a path and asks for something that is there, and
both lookups treat modes alike. -/
structure Lookup.Leads (lookup lookup' : Lookup) : Prop where
  follow : lookup.follow = true
  create : lookup.create = false
  checked : lookup.checked = lookup'.checked

namespace Node

theorem at?_append (tree : Node) (here more : Location) :
    tree.at? (here ++ more) = (tree.at? here).bind fun node => node.at? more := by
  induction here generalizing tree with
  | nil => rfl
  | cons name rest ih =>
    cases tree with
    | file mode content => rfl
    | link target => rfl
    | directory mode entries =>
      rw [List.cons_append, at?, at?]
      cases childNamed? entries name with
      | none => rfl
      | some child => exact ih child

/-- What stands directly under a directory is a node among its entries. -/
theorem at?_concat {tree : Node} {here : Location} {mode : Mode} {entries : List (Name × Node)}
    (hhere : tree.at? here = some (.directory mode entries)) (name : Name) :
    tree.at? (here ++ [name]) = childNamed? entries name := by
  rw [at?_append, hhere, Option.bind_some, at?]
  cases childNamed? entries name with
  | none => rfl
  | some child => rfl

theorem at?_append_singleton {tree child : Node} {here : Location} {mode : Mode}
    {entries : List (Name × Node)} {name : Name}
    (hhere : tree.at? here = some (.directory mode entries))
    (hchild : childNamed? entries name = some child) :
    tree.at? (here ++ [name]) = some child := by
  rw [at?_concat hhere, hchild]

section Append

variable {tree : Node} {location : Location} {mode : Mode} {entries : List (Name × Node)}
  {lookup' : Lookup} {more : List Name}

/-- If the first lookup finds the location, the second one comes to what is behind it. -/
def GoesOn (tree : Node) (lookup' : Lookup) (location : Location) (more : List Name)
    (found found' : Except IoError Location) : Prop :=
  found = .ok location → ∃ links, found' = tree.locate links lookup' location more

theorem GoesOn.error (cause : IoError) (found' : Except IoError Location) :
    tree.GoesOn lookup' location more (.error cause) found' :=
  fun h => by simp at h

/-- At the end of the beginning a link was followed, and now it is one in the middle. -/
theorem GoesOn.link (hmore : more ≠ [])
    {jump : Lookup → Location → List Name → Except IoError Location}
    (hjump : ∀ lookup here names, Lookup.Leads lookup lookup' →
      tree.GoesOn lookup' location more (jump lookup here names) (jump lookup' here (names ++ more)))
    {lookup : Lookup} (hlookup : Lookup.Leads lookup lookup') {here : Location} {name : Name}
    {rest : List Name} {mode : Mode} {entries : List (Name × Node)} {target : Path}
    (hhere : tree.at? here = some (.directory mode entries))
    (hchild : childNamed? entries name = some (.link target)) (hself : name ≠ Name.self)
    (hparent : name ≠ Name.parent) :
    tree.GoesOn lookup' location more (tree.follow jump lookup here (name :: rest))
      (tree.follow jump lookup' here (name :: (rest ++ more))) := by
  have hrest : (rest ++ more).isEmpty = false := by simp [hmore]
  simp only [follow, hhere, if_neg hself, if_neg hparent, hchild, hrest, hlookup.checked,
    hlookup.follow, Bool.true_or, if_true, Bool.false_eq_true, if_false]
  refine rel_ite (fun _ => .error _ _) fun _ => rel_ite (fun _ => .error _ _) fun _ => ?_
  rw [← List.append_assoc]
  split
  · next hlast =>
    obtain rfl : rest = [] := by simpa using hlast
    rw [List.append_nil]
    exact hjump _ _ _ ⟨rfl, hlookup.create, hlookup.checked⟩
  · exact hjump _ _ _ hlookup

/-- Any other entry is looked up alike, and a file is no directory to go on from. -/
theorem GoesOn.entry (hdirectory : tree.at? location = some (.directory mode entries))
    {jump : Lookup → Location → List Name → Except IoError Location} {lookup : Lookup}
    (hlookup : Lookup.Leads lookup lookup') {here : Location} {name : Name} {rest : List Name}
    {mode' : Mode} {entries' : List (Name × Node)}
    (hhere : tree.at? here = some (.directory mode' entries'))
    (hlink : ∀ target, childNamed? entries' name ≠ some (.link target)) (hself : name ≠ Name.self)
    (hparent : name ≠ Name.parent)
    (hrest : tree.GoesOn lookup' location more (tree.follow jump lookup (here ++ [name]) rest)
      (tree.follow jump lookup' (here ++ [name]) (rest ++ more))) :
    tree.GoesOn lookup' location more (tree.follow jump lookup here (name :: rest))
      (tree.follow jump lookup' here (name :: (rest ++ more))) := by
  simp only [follow, hhere, if_neg hself, if_neg hparent, hlookup.checked, hlookup.create]
  refine rel_ite (fun _ => .error _ _) fun _ => rel_ite (fun _ => .error _ _) fun _ => ?_
  cases hchild : childNamed? entries' name with
  | none =>
    intro h
    simp at h
  | some child =>
    cases child with
    | directory mode'' entries'' => exact hrest
    | file mode'' content =>
      intro h
      simp only at h
      split at h
      · obtain rfl : here ++ [name] = location := Except.ok.inj h
        rw [at?_append_singleton hhere hchild] at hdirectory
        simp at hdirectory
      · simp at h
    | link target => exact absurd hchild (hlink target)

/-- Both lookups pass the same checks at every name. -/
theorem follow_append (hdirectory : tree.at? location = some (.directory mode entries))
    (hmore : more ≠ []) {jump : Lookup → Location → List Name → Except IoError Location}
    (hjump : ∀ lookup here names, Lookup.Leads lookup lookup' →
      tree.GoesOn lookup' location more (jump lookup here names) (jump lookup' here (names ++ more)))
    (hend : ∃ links,
      tree.follow jump lookup' location more = tree.locate links lookup' location more)
    {lookup : Lookup} (hlookup : Lookup.Leads lookup lookup') (here : Location) (names : List Name) :
    tree.GoesOn lookup' location more (tree.follow jump lookup here names)
      (tree.follow jump lookup' here (names ++ more)) := by
  induction names generalizing here with
  | nil =>
    intro h
    obtain rfl : here = location := Except.ok.inj h
    exact hend
  | cons name rest ih =>
    rw [List.cons_append]
    cases hhere : tree.at? here with
    | none => simp only [follow, hhere]; exact .error _ _
    | some node =>
      cases node with
      | file mode' content => simp only [follow, hhere]; exact .error _ _
      | link target => simp only [follow, hhere]; exact .error _ _
      | directory mode' entries' =>
        by_cases hself : name = Name.self
        · simp only [follow, hhere, hlookup.checked, if_pos hself]
          exact rel_ite (fun _ => .error _ _) fun _ => ih here
        by_cases hparent : name = Name.parent
        · simp only [follow, hhere, hlookup.checked, if_neg hself, if_pos hparent]
          exact rel_ite (fun _ => .error _ _) fun _ => ih here.dropLast
        by_cases hlink : ∃ target, childNamed? entries' name = some (.link target)
        · obtain ⟨target, hchild⟩ := hlink
          exact .link hmore hjump hlookup hhere hchild hself hparent
        · exact .entry hdirectory hlookup hhere (not_exists.1 hlink) hself hparent
            (ih (here ++ [name]))

/-- From where the beginning of a path leads, the rest of it leads on. -/
theorem locate_append (hdirectory : tree.at? location = some (.directory mode entries))
    (hmore : more ≠ []) {links : Nat} {lookup : Lookup} (hlookup : Lookup.Leads lookup lookup')
    (here : Location) (names : List Name)
    (h : tree.locate links lookup here names = .ok location) :
    ∃ links', tree.locate links lookup' here (names ++ more) =
      tree.locate links' lookup' location more := by
  induction links generalizing lookup here names with
  | zero =>
    exact follow_append hdirectory hmore (fun _ _ _ _ => .error _ _) ⟨0, rfl⟩ hlookup here names h
  | succ links ih =>
    refine follow_append hdirectory hmore ?_ ⟨links + 1, rfl⟩ hlookup here names h
    intro lookup here names hleads hfound
    exact ih hleads here names hfound

/-- A name that stands for itself leads to the entry of that name, unless that is a link. -/
theorem eq_of_locate_singleton {child : Node} {links : Nat} {name : Name} {target : Location}
    (hdirectory : tree.at? location = some (.directory mode entries))
    (hchild : childNamed? entries name = some child) (hname : name.Proper)
    (hlink : child.kind ≠ .link) (h : tree.locate links lookup' location [name] = .ok target) :
    target = location ++ [name] := by
  have hfollow (jump : Lookup → Location → List Name → Except IoError Location)
      (h : tree.follow jump lookup' location [name] = .ok target) : target = location ++ [name] := by
    simp only [follow, hdirectory, hname.ne_self, hname.ne_parent, Nat.not_lt.2 hname.length_le,
      hchild, if_false] at h
    split at h
    · simp at h
    · cases child with
      | directory mode' entries' => simpa [eq_comm] using h
      | file mode' content =>
        simp only [List.isEmpty_nil, Bool.true_and] at h
        split at h
        · simpa [eq_comm] using h
        · simp at h
      | link target => exact absurd rfl hlink
  cases links with
  | zero => exact hfollow _ h
  | succ links => exact hfollow _ h

/-- It does lead there, unless the directory may not be searched. -/
theorem locate_singleton {child : Node} {name : Name} (links : Nat)
    (hdirectory : tree.at? location = some (.directory mode entries))
    (hchild : childNamed? entries name = some child) (hname : name.Proper)
    (hlink : child.kind ≠ .link) (honly : lookup'.directoryOnly = false) :
    tree.locate links lookup' location [name] =
      if lookup'.checked && !mode.search then .error .permissionDenied
      else .ok (location ++ [name]) := by
  have hfollow (jump : Lookup → Location → List Name → Except IoError Location) :
      tree.follow jump lookup' location [name] =
        if lookup'.checked && !mode.search then .error .permissionDenied
        else .ok (location ++ [name]) := by
    simp only [follow, hdirectory, hname.ne_self, hname.ne_parent, Nat.not_lt.2 hname.length_le,
      hchild, if_false]
    cases child with
    | directory mode' entries' => rfl
    | file mode' content => simp [honly]
    | link target => exact absurd rfl hlink
  cases links with
  | zero => exact hfollow _
  | succ links => exact hfollow _

end Append

/-! ### A link at the end of a path -/

section End

variable {tree : Node}

/-- The same comes out, unless what comes out first is the place of a link. -/
def SameUnlessLink (tree : Node) (found found' : Except IoError Location) : Prop :=
  found = found' ∨ ∃ location target, found = .ok location ∧ tree.at? location = some (.link target)

theorem SameUnlessLink.refl (found : Except IoError Location) : tree.SameUnlessLink found found :=
  .inl rfl

theorem follow_end {jump : Lookup → Location → List Name → Except IoError Location}
    (hjump : ∀ (lookup : Lookup) here names, tree.SameUnlessLink
      (jump { lookup with follow := false } here names)
      (jump { lookup with follow := true } here names))
    (lookup : Lookup) (here : Location) (names : List Name) :
    tree.SameUnlessLink (tree.follow jump { lookup with follow := false } here names)
      (tree.follow jump { lookup with follow := true } here names) := by
  induction names generalizing here with
  | nil => exact .refl _
  | cons name rest ih =>
    rw [follow, follow]
    cases hhere : tree.at? here with
    | none => exact .refl _
    | some node =>
      cases node with
      | file mode content => exact .refl _
      | link target => exact .refl _
      | directory mode entries =>
        refine rel_ite (fun _ => .refl _) fun _ => rel_ite (fun _ => ih here) fun _ =>
          rel_ite (fun _ => ih here.dropLast) fun _ => rel_ite (fun _ => .refl _) fun _ => ?_
        cases hchild : childNamed? entries name with
        | none => exact .refl _
        | some child =>
          cases child with
          | directory mode' entries' => exact ih (here ++ [name])
          | file mode' content => exact .refl _
          | link target =>
            refine rel_ite (fun _ => ?_) fun _ => hjump lookup _ _
            -- Here the path ends, and only a path for a directory goes on.
            cases lookup.directoryOnly with
            | true => exact .refl _
            | false => exact .inr ⟨_, target, rfl, at?_append_singleton hhere hchild⟩

/-- Whether a link at the end is followed or not, a path leads to the same place, unless that is a
link. -/
theorem locate_end (tree : Node) (links : Nat) (lookup : Lookup) (here : Location)
    (names : List Name) :
    tree.SameUnlessLink (tree.locate links { lookup with follow := false } here names)
      (tree.locate links { lookup with follow := true } here names) := by
  induction links generalizing lookup here names with
  | zero => exact follow_end (fun _ _ _ => .refl _) lookup here names
  | succ links ih => exact follow_end ih lookup here names

end End
end Node

namespace FileSystem

theorem locate_eq_ok {fs : FileSystem} {path : Path} {follow : Bool} {location : Location}
    (h : fs.locate path follow = .ok location) :
    path ≠ [] ∧ fs.tree.locate maxLinks { follow, directoryOnly := Path.hasTrailingSlash path }
      (Path.origin fs.here path) (Path.names path) = .ok location := by
  unfold locate Node.resolve at h
  split at h
  · simp at h
  split at h
  · simp at h
  next hempty =>
  split at h
  · simp at h
  exact ⟨by simpa using hempty, by simpa using h⟩

theorem length_lt_of_locate {fs : FileSystem} {path : Path} {follow : Bool} {location : Location}
    (h : fs.locate path follow = .ok location) : path.length < pathLimit := by
  by_cases hlength : pathLimit ≤ path.length
  · unfold locate Node.resolve at h
    rw [if_pos hlength] at h
    split at h
    · simp at h
    · split at h
      · simp at h
      · simp at h
  · exact Nat.lt_of_not_le hlength

theorem node_eq_ok_iff {fs : FileSystem} {path : Path} {follow : Bool} {node : Node} :
    fs.node path follow = .ok node ↔
      ∃ location, fs.locate path follow = .ok location ∧ fs.tree.at? location = some node := by
  unfold FileSystem.node
  cases fs.locate path follow with
  | error cause => simp [bind, Except.bind]
  | ok location =>
    cases hnode : fs.tree.at? location with
    | none => simp [bind, Except.bind, hnode]
    | some node' => simp [bind, Except.bind, hnode]

/-- What a path leads to is what it names, unless it names a link. -/
theorem node_end {fs : FileSystem} {path : Path} {node : Node} (h : fs.node path true = .ok node) :
    fs.node path false = .ok node ∨ ∃ target, fs.node path false = .ok (.link target) := by
  have hend : fs.tree.SameUnlessLink (fs.locate path false) (fs.locate path true) := by
    unfold locate Node.resolve
    exact rel_ite (fun _ => .refl _) fun _ => rel_ite (fun _ => .refl _) fun _ =>
      rel_ite (fun _ => .refl _) fun _ =>
        Node.locate_end fs.tree maxLinks { directoryOnly := Path.hasTrailingSlash path } _ _
  rcases hend with hsame | ⟨location, target, hlocate, hlink⟩
  · refine .inl ?_
    rw [FileSystem.node, hsame]
    exact h
  · exact .inr ⟨target, node_eq_ok_iff.2 ⟨location, hlocate, hlink⟩⟩

/-- The path of an entry of a directory leads to that entry if it leads anywhere. -/
theorem eq_of_locate_join {fs : FileSystem} {path : Path} {location target : Location} {mode : Mode}
    {entries : List (Name × Node)} {name : Name} {child : Node}
    (hpath : fs.locate path true = .ok location)
    (hdirectory : fs.tree.at? location = some (.directory mode entries))
    (hchild : childNamed? entries name = some child) (hname : name.Proper)
    (hlink : child.kind ≠ .link) (h : fs.locate (path.join name) true = .ok target) :
    target = location ++ [name] := by
  obtain ⟨hne, hfirst⟩ := locate_eq_ok hpath
  obtain ⟨-, hsecond⟩ := locate_eq_ok h
  -- Both are followed from the same place, and the second has one name more.
  have horigin : Path.origin fs.here (path.join name) = Path.origin fs.here path := by
    rw [Path.origin, Path.origin, Path.isAbsolute_join hne]
  have hleads : Lookup.Leads { directoryOnly := Path.hasTrailingSlash path }
      { directoryOnly := Path.hasTrailingSlash (path.join name) } := ⟨rfl, rfl, rfl⟩
  obtain ⟨links, hlinks⟩ := Node.locate_append hdirectory (List.cons_ne_nil name []) hleads _ _ hfirst
  rw [horigin, Path.names_join hne hname, hlinks] at hsecond
  exact Node.eq_of_locate_singleton hdirectory hchild hname hlink hsecond

/-- Where the path of an entry of a directory leads. -/
theorem locate_join {fs : FileSystem} {path : Path} {location : Location} {mode : Mode}
    {entries : List (Name × Node)} {name : Name} {child : Node}
    (hpath : fs.locate path true = .ok location)
    (hdirectory : fs.tree.at? location = some (.directory mode entries))
    (hchild : childNamed? entries name = some child) (hname : name.isProper = true)
    (hlink : child.kind ≠ .link) :
    fs.locate (path.join name) true =
      if pathLimit ≤ (path.join name).length then .error .nameTooLong
      else if mode.search then .ok (location ++ [name])
      else .error .permissionDenied := by
  have hproper := Name.proper_of_isProper hname
  obtain ⟨hne, hfirst⟩ := locate_eq_ok hpath
  have hzero : (path.join name).contains 0 = false := by
    have hpathZero : 0 ∉ path := by
      intro hmem
      simp [locate, Node.resolve, hmem] at hpath
    simpa using Path.zero_not_mem_join hpathZero (Name.zero_not_mem_of_isProper hname)
  have hempty : (path.join name).isEmpty = false := by
    obtain ⟨front, hjoin, -⟩ := Path.exists_join_eq hne name
    simp [hjoin]
  have horigin : Path.origin fs.here (path.join name) = Path.origin fs.here path := by
    rw [Path.origin, Path.origin, Path.isAbsolute_join hne]
  have hleads : Lookup.Leads { directoryOnly := Path.hasTrailingSlash path }
      { directoryOnly := false } := ⟨rfl, rfl, rfl⟩
  obtain ⟨links, hlinks⟩ := Node.locate_append hdirectory (List.cons_ne_nil name []) hleads _ _ hfirst
  rw [Node.locate_singleton links hdirectory hchild hproper hlink rfl] at hlinks
  simp only [locate, Node.resolve, hzero, hempty, Path.hasTrailingSlash_join path hproper, horigin,
    Path.names_join hne hproper, Bool.false_eq_true, if_false, Bool.or_self]
  rw [hlinks]
  cases mode.search with
  | false => rfl
  | true => rfl

end FileSystem
end BackingField
