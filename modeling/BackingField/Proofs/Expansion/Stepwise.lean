import BackingField.Proofs.Expansion.Idempotence

/-!
# One occurrence at a time

Instead of all occurrences of one search, any one of them can be replaced and the text searched
again.  A step takes away one occurrence and keeps what all of them together expand to
(`expand_of_expandsOne`), whichever is chosen.  So every sequence of steps ends in the expanded text,
after as many steps as there are properties (`expand_one_at_a_time`).
-/

namespace BackingField

open Text

/-- One occurrence of the text is replaced by its expanded form. -/
def ExpandsOne (t next : Text) : Prop :=
  ∃ o ∈ Occurrence.find t, splice t [o.edit] = .ok next

/-- The given number of occurrences is replaced, one at a time, with a new search after each. -/
inductive ExpandsStepwise (source : Text) : (steps : Nat) → Text → Prop
  | start : ExpandsStepwise source 0 source
  | step {steps : Nat} {t next : Text} (hsteps : ExpandsStepwise source steps t)
      (hstep : ExpandsOne t next) : ExpandsStepwise source (steps + 1) next

/-! ### The result of a replacement -/

namespace Replaces

/-- A text has only one replacement. -/
theorem unique {lineStart : Bool} {source result result' : Text}
    (h : Replaces lineStart source result) (h' : Replaces lineStart source result') :
    result = result' := by
  induction h generalizing result' with
  | nil lineStart =>
    generalize ht : ([] : Text) = t at h'
    cases h' with
    | nil => rfl
    | keep => simp at ht
    | expand hspelled _ =>
      obtain ⟨hs, -⟩ := List.append_eq_nil_iff.1 ht.symm
      exact absurd hs (Occurrence.text_ne_nil_of_isSpelledBy hspelled)
  | @keep lineStart c source result hnone hrest ih =>
    generalize ht : c :: source = t at h'
    cases h' with
    | nil => simp at ht
    | keep _ hrest' =>
      obtain ⟨rfl, rfl⟩ := List.cons.inj ht
      rw [ih hrest']
    | @expand d s source' _ hspelled _ =>
      have hread := Declaration.read?_eq_some_iff.2 ⟨s, hspelled, ht⟩
      rw [hnone rfl] at hread
      simp at hread
  | @expand d s source result hspelled hrest ih =>
    have hread : Declaration.read? (s ++ source) = some (d, source) :=
      Declaration.read?_eq_some_iff.2 ⟨s, hspelled, rfl⟩
    generalize ht : s ++ source = t at h' hread
    cases h' with
    | nil =>
      obtain ⟨hs, -⟩ := List.append_eq_nil_iff.1 ht
      exact absurd hs (Occurrence.text_ne_nil_of_isSpelledBy hspelled)
    | keep hnone _ =>
      rw [hnone rfl] at hread
      simp at hread
    | @expand d' s' source' _ hspelled' hrest' =>
      -- At one place only one declaration is read, and it ends at one place.
      rw [Declaration.read?_eq_some_iff.2 ⟨s', hspelled', rfl⟩] at hread
      obtain ⟨rfl, rfl⟩ : d' = d ∧ source' = source := by simpa using hread
      obtain rfl : s = s' := List.append_cancel_right ht
      rw [ih hrest']

/-- Every text has a replacement. -/
theorem exists_result (lineStart : Bool) (source : Text) :
    ∃ result, Replaces lineStart source result := by
  obtain ⟨result, hreplaces, -⟩ := exists_replaces_applyBackwards 0 lineStart source [] rfl
  exact ⟨result, hreplaces⟩

/-- A text without line starts where something is read is kept. -/
theorem append {lineStart : Bool} {s source result : Text} {c : Char}
    (hstart : lineStart = true → Declaration.read? (s ++ c :: source) = none)
    (hlines : AtLines (fun y => Declaration.read? y = none) s (c :: source))
    (h : Replaces (c == '\n') source result) :
    Replaces lineStart (s ++ c :: source) (s ++ c :: result) := by
  induction s generalizing lineStart with
  | nil => exact .keep hstart h
  | cons d s ih =>
    refine .keep hstart (ih ?_ ?_)
    · intro hd
      exact hlines [d] s rfl ⟨[], by simp [beq_iff_eq.1 hd]⟩
    · intro x y hxy hx
      refine hlines (d :: x) y (by rw [hxy]; rfl) ?_
      exact (endsLine_append hx.ne_nil (s := [d])).2 hx

/-- An expanded form is kept, and what follows it is replaced as before. -/
theorem expanded_append {d : Declaration} (hd : d.WellFormed) (ending : LineEnding)
    {source result : Text} (h : Replaces false source result) :
    Replaces true (d.expanded ending ++ source) (d.expanded ending ++ result) := by
  obtain ⟨front, hfront, hread, hlines⟩ := Declaration.exists_expanded_eq_append hd ending source
  rw [hfront, List.append_assoc, List.append_assoc, List.singleton_append, List.singleton_append]
  exact append (fun _ => hread) hlines h

end Replaces

/-! ### One step -/

namespace Occurrence

/-- How many occurrences there are does not depend on where the text begins. -/
theorem length_findFrom_eq (offset offset' : Nat) (lineStart : Bool) (t : Text) :
    (findFrom offset lineStart t).length = (findFrom offset' lineStart t).length := by
  fun_induction findFrom offset lineStart t generalizing offset' with
  | case1 offset lineStart t d rest hread o ih =>
    obtain ⟨rfl, s, hspelled, rfl⟩ := exists_isSpelledBy_of_read? hread
    rw [findFrom_true_of_some (Declaration.read?_eq_some_iff.2 ⟨s, hspelled, rfl⟩),
      List.length_cons, List.length_cons, ih]
  | case2 offset lineStart hread => rw [findFrom_nil]
  | case3 offset lineStart c t hread ih =>
    rw [findFrom_cons offset' fun hstart => by simpa [hstart] using hread, ih]

/-- The search passes over an expanded form. -/
theorem length_findFrom_expanded_append {d : Declaration} (hd : d.WellFormed) (ending : LineEnding)
    (offset offset' : Nat) (t : Text) :
    (findFrom offset true (d.expanded ending ++ t)).length = (findFrom offset' false t).length := by
  obtain ⟨front, hfront, hread, hlines⟩ := Declaration.exists_expanded_eq_append hd ending t
  rw [hfront, List.append_assoc, List.singleton_append,
    findFrom_append offset (fun _ => hread) hlines]
  exact length_findFrom_eq _ _ _ _

/-- The occurrence stands in a text between `front` and `after`.  With its expanded form in its place
there is one occurrence less, and the replacement of all occurrences is the same as before. -/
structure StepsFrom (offset : Nat) (lineStart : Bool) (t : Text) (o : Occurrence)
    (front after result : Text) : Prop where
  source : t = front ++ (o.text ++ after)
  start : o.start = offset + size front
  stop : o.stop = offset + size (front ++ o.text)
  line : front = [] ∧ lineStart = true ∨ EndsLine front
  wellFormed : o.declaration.WellFormed
  before : Replaces lineStart t result
  behind : Replaces lineStart (front ++ (o.expanded ++ after)) result
  count : (findFrom offset lineStart (front ++ (o.expanded ++ after))).length + 1 =
    (findFrom offset lineStart t).length

namespace StepsFrom

variable {offset : Nat} {lineStart : Bool} {d : Declaration} {s t front after result : Text}
  {o : Occurrence}

/-- The first occurrence becomes its expanded form, and the search passes over that. -/
theorem first (hspelled : d.IsSpelledBy s) (h : Replaces false t result) (offset : Nat) :
    StepsFrom offset true (s ++ t) (atFront offset (s ++ t) d t) [] t
      (d.expanded (LineEnding.ofText s) ++ result) := by
  have hd := hspelled.wellFormed
  have hread : Declaration.read? (s ++ t) = some (d, t) :=
    Declaration.read?_eq_some_iff.2 ⟨s, hspelled, rfl⟩
  have hexpanded : (atFront offset (s ++ t) d t).expanded = d.expanded (LineEnding.ofText s) := by
    rw [atFront_append, expanded, lineEnding]
  exact {
    source := by rw [atFront_append, List.nil_append]
    start := by rw [atFront_append, size_nil, Nat.add_zero]
    stop := by rw [atFront_append, List.nil_append]
    line := .inl ⟨rfl, rfl⟩
    wellFormed := by rw [atFront_append]; exact hd
    before := .expand hspelled h
    behind := by
      rw [List.nil_append, hexpanded]
      exact h.expanded_append hd (LineEnding.ofText s)
    count := by
      rw [List.nil_append, hexpanded, findFrom_true_of_some hread, List.length_cons,
        length_findFrom_expanded_append hd (LineEnding.ofText s)] }

/-- A later occurrence can be replaced behind the first one. -/
theorem later (hspelled : d.IsSpelledBy s)
    (h : StepsFrom (offset + size s) false t o front after result) :
    StepsFrom offset true (s ++ t) o (s ++ front) after
      (d.expanded (LineEnding.ofText s) ++ result) := by
  have hread (t' : Text) : Declaration.read? (s ++ t') = some (d, t') :=
    Declaration.read?_eq_some_iff.2 ⟨s, hspelled, rfl⟩
  have hline : EndsLine front := h.line.resolve_left fun ⟨_, hfalse⟩ => Bool.false_ne_true hfalse
  exact {
    source := by rw [h.source, List.append_assoc]
    start := by rw [h.start, size_append, Nat.add_assoc]
    stop := by rw [h.stop, List.append_assoc, size_append s, Nat.add_assoc]
    line := .inr ((endsLine_append hline.ne_nil).2 hline)
    wellFormed := h.wellFormed
    before := .expand hspelled h.before
    behind := by
      rw [List.append_assoc]
      exact .expand hspelled h.behind
    count := by
      rw [List.append_assoc, findFrom_true_of_some (hread _), findFrom_true_of_some (hread t),
        List.length_cons, List.length_cons, atFront_append, atFront_append, h.count] }

/-- A character that is passed over stays in front.  The occurrence begins at a line start, so with
its expanded form nothing new is read in front of it. -/
theorem cons {c : Char} (hnone : lineStart = true → Declaration.read? (c :: t) = none)
    (h : StepsFrom (offset + c.utf8Size) (c == '\n') t o front after result) :
    StepsFrom offset lineStart (c :: t) o (c :: front) after (c :: result) := by
  have hline : EndsLine (c :: front) := by
    rcases h.line with ⟨rfl, hfeed⟩ | hline
    · exact ⟨[], by simp [beq_iff_eq.1 hfeed]⟩
    · exact (endsLine_append hline.ne_nil (s := [c])).2 hline
  have hnone' : lineStart = true →
      Declaration.read? (c :: (front ++ (o.expanded ++ after))) = none := by
    intro hstart
    have hold := hnone hstart
    rw [h.source] at hold
    exact Declaration.read?_eq_none_of_expanded h.wellFormed o.lineEnding after hline hold
  exact {
    source := by rw [h.source, List.cons_append]
    start := by rw [h.start, size_cons, Nat.add_assoc]
    stop := by rw [h.stop, List.cons_append, size_cons, Nat.add_assoc]
    line := .inr hline
    wellFormed := h.wellFormed
    before := .keep hnone h.before
    behind := .keep hnone' h.behind
    count := by
      rw [List.cons_append, findFrom_cons offset hnone', findFrom_cons offset hnone]
      exact h.count }

end StepsFrom

/-- A step can be made with every occurrence that the search finds. -/
theorem exists_stepsFrom (offset : Nat) (lineStart : Bool) (t : Text) :
    ∀ o ∈ findFrom offset lineStart t, ∃ front after result,
      StepsFrom offset lineStart t o front after result := by
  fun_induction findFrom offset lineStart t with
  | case1 offset lineStart t d rest hread first ih =>
    intro o ho
    obtain ⟨rfl, s, hspelled, rfl⟩ := exists_isSpelledBy_of_read? hread
    rcases List.mem_cons.1 ho with rfl | hlater
    · obtain ⟨result, hrest⟩ := Replaces.exists_result false rest
      exact ⟨_, _, _, .first hspelled hrest offset⟩
    · obtain ⟨front, after, result, hstep⟩ := ih o hlater
      have hstop : first.stop = offset + size s :=
        congrArg Occurrence.stop (atFront_append offset s rest d)
      rw [hstop] at hstep
      exact ⟨_, _, _, .later hspelled hstep⟩
  | case2 offset lineStart hread =>
    intro o ho
    simp at ho
  | case3 offset lineStart c t hread ih =>
    intro o ho
    obtain ⟨front, after, result, hstep⟩ := ih o ho
    exact ⟨_, _, _, hstep.cons fun hstart => by simpa [hstart] using hread⟩

/-- The edit of an occurrence that is found can be made, and it makes such a step. -/
theorem exists_step {t : Text} {o : Occurrence} (ho : o ∈ find t) :
    ∃ front after result, StepsFrom 0 true t o front after result ∧
      splice t [o.edit] = .ok (front ++ (o.expanded ++ after)) := by
  obtain ⟨front, after, result, hstep⟩ := exists_stepsFrom 0 true t o ho
  refine ⟨front, after, result, hstep, ?_⟩
  have hspan : ∀ e ∈ [o.edit], e.start < e.stop := by
    intro e he
    rw [List.mem_singleton.1 he]
    exact ((leftmostScan_find t).occurs o ho).start_lt_stop
  have hedit : o.edit = ⟨size front, size (front ++ o.text), o.expanded⟩ := by
    rw [edit, hstep.start, hstep.stop, Nat.zero_add, Nat.zero_add]
  rw [splice_eq_applyBackwards hspan (List.pairwise_singleton _ _), hedit]
  simp only [Splice.applyBackwards, hstep.source, bind, Except.bind, Edit.applyTo?_append]

end Occurrence

/-- A step takes one property away, and the rest expands to the same text. -/
theorem expand_of_expandsOne {t next : Text} {e : Expansion} (hexpand : expand t = .ok e)
    (h : ExpandsOne t next) :
    ∃ properties, e.properties = properties + 1 ∧ expand next = .ok ⟨e.text, properties⟩ := by
  obtain ⟨o, ho, hsplice⟩ := h
  obtain ⟨front, after, result, hstep, hnext⟩ := Occurrence.exists_step ho
  rw [hnext] at hsplice
  obtain rfl := Except.ok.inj hsplice
  obtain ⟨whole, hwhole, hexpand'⟩ := expand_eq_ok t
  obtain ⟨rest, hrest, hexpandRest⟩ := expand_eq_ok (front ++ (o.expanded ++ after))
  obtain rfl : e = ⟨whole, (Occurrence.find t).length⟩ := by
    rw [hexpand] at hexpand'
    exact Except.ok.inj hexpand'
  refine ⟨_, hstep.count.symm, ?_⟩
  -- Both texts have the replacement that the step keeps.
  rw [hexpandRest, hrest.unique hstep.behind, hwhole.unique hstep.before]
  rfl

/-! ### Any number of steps -/

/-- After some steps, what is left to expand and the number of steps make up what there was. -/
theorem ExpandsStepwise.expand_eq {source t : Text} {steps : Nat} {e : Expansion}
    (hexpand : expand source = .ok e) (h : ExpandsStepwise source steps t) :
    ∃ properties, steps + properties = e.properties ∧ expand t = .ok ⟨e.text, properties⟩ := by
  induction h with
  | start => exact ⟨e.properties, Nat.zero_add _, hexpand⟩
  | step hsteps hstep ih =>
    obtain ⟨properties, hcount, ht⟩ := ih
    obtain ⟨left, hleft, hnext⟩ := expand_of_expandsOne ht hstep
    simp only at hleft hnext
    exact ⟨left, by omega, hnext⟩

theorem exists_expandsOne_iff {t : Text} {e : Expansion} (hexpand : expand t = .ok e) :
    (∃ next, ExpandsOne t next) ↔ 0 < e.properties := by
  obtain ⟨result, -, hexpand'⟩ := expand_eq_ok t
  obtain rfl : e = ⟨result, (Occurrence.find t).length⟩ := by
    rw [hexpand] at hexpand'
    exact Except.ok.inj hexpand'
  constructor
  · rintro ⟨next, o, ho, -⟩
    exact List.length_pos_of_mem ho
  · intro hpos
    obtain ⟨o, ho⟩ := List.exists_mem_of_length_pos hpos
    obtain ⟨front, after, -, -, hnext⟩ := Occurrence.exists_step ho
    exact ⟨_, o, ho, hnext⟩

/-- A text without properties is its own expanded form. -/
theorem eq_of_expand_eq {t text : Text} (h : expand t = .ok ⟨text, 0⟩) : t = text := by
  obtain ⟨result, -, hexpand⟩ := expand_eq_ok t
  rw [h] at hexpand
  have hfind : Occurrence.find t = [] := by
    have hcount := congrArg Expansion.properties (Except.ok.inj hexpand)
    exact List.length_eq_zero_iff.1 hcount.symm
  have hself : expand t = .ok ⟨t, 0⟩ := by
    simp only [expand, hfind]
    rfl
  rw [h] at hself
  exact (congrArg Expansion.text (Except.ok.inj hself)).symm

/-- Replacing one occurrence at a time comes to the same as replacing all of one search.  Whichever
occurrence is chosen, it can be replaced; as many steps can be made as there are properties; and the
text behind the last step is the expanded text. -/
theorem expand_one_at_a_time (source : Text) :
    ∃ e, expand source = .ok e ∧ ∀ steps t, ExpandsStepwise source steps t →
      steps ≤ e.properties ∧ ((∃ next, ExpandsOne t next) ↔ steps < e.properties) ∧
      (∀ o ∈ Occurrence.find t, ∃ next, splice t [o.edit] = .ok next) ∧
      (steps = e.properties → t = e.text) := by
  obtain ⟨result, -, hexpand⟩ := expand_eq_ok source
  refine ⟨_, hexpand, fun steps t hsteps => ?_⟩
  obtain ⟨properties, hcount, ht⟩ := hsteps.expand_eq hexpand
  simp only at hcount ht ⊢
  refine ⟨by omega, ?_, fun o ho => ?_, fun hall => ?_⟩
  · rw [exists_expandsOne_iff ht]
    show 0 < properties ↔ _
    omega
  · obtain ⟨front, after, -, -, hnext⟩ := Occurrence.exists_step ho
    exact ⟨_, hnext⟩
  · obtain rfl : properties = 0 := by omega
    exact eq_of_expand_eq ht

end BackingField
