import BackingField.Proofs.Diff.Compaction

/-!
# The beginning of a compact script

The old place that an insertion carries does not follow when the insertion changes places with a
deletion.  At the very front it is right nevertheless: when a compact script begins with an insertion
and no deletion comes before the first kept line, that insertion belongs to the front
(`startsRight_compact`).

On the way an insertion may come to the front from behind kept lines.  It goes back again then,
because the kept lines that it slid over repeat its own (`Focus.Returns`).
-/

namespace BackingField
namespace Diff

variable {v : Versions} {x x' y y' n : Nat} {op op' current : Operation}
  {front ops ops' : List Operation}

/-- A deletion comes before the first kept line. -/
def DeletesFirst : List Operation → Prop
  | [] => False
  | op :: ops => op.action = .delete ∨ op.action = .insert ∧ DeletesFirst ops

/-- An insertion at the beginning carries the old place `x`, unless a deletion comes before the first
kept line. -/
def StartsRight (x : Nat) : List Operation → Prop
  | [] => True
  | op :: ops => op.action = .insert → op.old = x ∨ DeletesFirst ops

theorem startsRight_cons_of_ne (h : op.action ≠ .insert) : StartsRight x (op :: ops) :=
  fun hinsert => absurd hinsert h

theorem not_deletesFirst_keep (h : op.action = .keep) : ¬ DeletesFirst (op :: ops) := by
  simp [DeletesFirst, h]

theorem DeletesFirst.append_congr (h : DeletesFirst (front ++ ops))
    (hops : DeletesFirst ops → DeletesFirst ops') : DeletesFirst (front ++ ops') := by
  induction front with
  | nil => exact hops h
  | cons op front ih =>
    rcases h with hdelete | ⟨hinsert, hlater⟩
    · exact .inl hdelete
    · exact .inr ⟨hinsert, ih hlater⟩

/-- What comes last can be exchanged when it does not start worse and still deletes first. -/
theorem StartsRight.append_congr (h : StartsRight x (front ++ ops))
    (hstart : StartsRight x ops → StartsRight x ops')
    (hdelete : DeletesFirst ops → DeletesFirst ops') : StartsRight x (front ++ ops') := by
  cases front with
  | nil => exact hstart h
  | cons op front =>
    intro hinsert
    rcases h hinsert with hold | hfirst
    · exact .inl hold
    · exact .inr (hfirst.append_congr hdelete)

/-- From kept lines on everything may change. -/
theorem StartsRight.append_keep (h : StartsRight x (front ++ op :: ops)) (hkeep : op.action = .keep)
    (hops : StartsRight x ops') : StartsRight x (front ++ ops') :=
  h.append_congr (fun _ => hops) fun hfirst => absurd hfirst (not_deletesFirst_keep hkeep)

/-- Behind a first operation everything may change from kept lines on. -/
theorem StartsRight.append_of_ne_nil (h : StartsRight x (front ++ op :: ops))
    (hkeep : op.action = .keep) (hfront : front ≠ []) : StartsRight x (front ++ ops') := by
  cases front with
  | nil => exact absurd rfl hfront
  | cons first front =>
    intro hinsert
    refine (h hinsert).imp_right fun hfirst => hfirst.append_congr fun hlater => ?_
    exact absurd hlater (not_deletesFirst_keep hkeep)

/-! ### The moves -/

theorem StartsRight.merge (h : StartsRight x (front ++ op :: current :: ops))
    (hsame : op.action = current.action) :
    StartsRight x (front ++ { op with count := n } :: ops) := by
  refine h.append_congr (fun hstart hinsert => ?_) fun hfirst => ?_
  · rcases hstart hinsert with hold | hdelete | ⟨-, hlater⟩
    · exact .inl hold
    · rw [← hsame] at hdelete
      simp_all
    · exact .inr hlater
  · rcases hfirst with hdelete | ⟨hinsert, hdelete | ⟨-, hlater⟩⟩
    · exact .inl hdelete
    · exact .inl (hsame.trans hdelete)
    · exact .inr ⟨hinsert, hlater⟩

theorem StartsRight.swap (h : StartsRight x (front ++ op :: current :: ops))
    (hother : op.action ≠ current.action) (hkeep : op.action ≠ .keep)
    (hkeep' : current.action ≠ .keep) : StartsRight x (front ++ current :: op :: ops) := by
  -- One of the two is a deletion, and then the other is an insertion.
  have hfirst : DeletesFirst (current :: op :: ops) := by
    cases hcurrent : current.action with
    | keep => exact absurd hcurrent hkeep'
    | delete => exact .inl hcurrent
    | insert =>
      refine .inr ⟨hcurrent, .inl ?_⟩
      cases hop : op.action with
      | keep => exact absurd hop hkeep
      | delete => rfl
      | insert => exact absurd (hop.trans hcurrent.symm) hother
  refine h.append_congr (fun _ hinsert => ?_) fun _ => hfirst
  rcases hfirst with hdelete | ⟨-, hlater⟩
  · rw [hinsert] at hdelete
    simp at hdelete
  · exact .inr hlater

theorem StartsRight.growBefore {before : List Operation} {old new : Nat}
    (h : StartsRight x (before.reverse ++ ⟨.keep, old, new, n⟩ :: ops)) :
    StartsRight x ((Diff.growBefore old new n before).reverse ++ ops) := by
  cases before with
  | nil => exact h
  | cons op before =>
    rw [Diff.growBefore]
    split
    · next hkeep =>
      rw [List.reverse_cons, List.append_assoc, List.singleton_append] at h ⊢
      exact h.append_keep hkeep (startsRight_cons_of_ne (by simp [hkeep]))
    · simpa using h

/-! ### The way of an operation -/

theorem Versions.sameFront_ne_zero {r : Region} (hold : r.oldStart < r.oldStop)
    (hnew : r.newStart < r.newStop) (hsame : v.old[r.oldStart]? = v.new[r.newStart]?) :
    v.sameFront r ≠ 0 := by
  rw [sameFront, if_pos ⟨hold, hnew, hsame⟩]
  exact Nat.succ_ne_zero _

namespace Focus

/-- The operation came to the front along kept lines, over which it can slide back. -/
def Returns (v : Versions) (f : Focus) : Prop :=
  f.before = [] ∧ ∃ kept after, f.after = kept :: after ∧ kept.action = .keep ∧
    slideDown v kept f.current ≠ 0

theorem not_returns_cons {before after : List Operation} :
    ¬ Returns v ⟨op :: before, current, after⟩ := by
  rintro ⟨hnil, -⟩
  simp at hnil

/-- The script starts right, or the operation in focus stands there only for now. -/
def Starts (v : Versions) (x : Nat) (f : Focus) : Prop :=
  StartsRight x f.script ∨ f.Returns v

theorem Starts.cons {before after : List Operation}
    (h : Starts v x ⟨op :: before, current, after⟩) :
    StartsRight x (before.reverse ++ op :: current :: after) := by
  have hright := h.resolve_right not_returns_cons
  rwa [script_cons_before] at hright

theorem exists_growAfter_eq (old new n : Nat) (ops : List Operation) :
    ∃ kept rest, growAfter old new n ops = kept :: rest ∧ kept.action = .keep := by
  cases ops with
  | nil => exact ⟨_, _, rfl, rfl⟩
  | cons op ops =>
    rw [growAfter]
    split
    · next hkeep => exact ⟨_, _, rfl, hkeep⟩
    · exact ⟨_, _, rfl, rfl⟩

/-- An insertion that slid over all lines of a keep can slide back over the same lines. -/
theorem returns_slideUp {after : List Operation} (h : Leads v x y (op :: current :: after) x' y')
    (hkeep : op.action = .keep) (hslides : slideUp v op current ≠ 0)
    (hall : op.count - slideUp v op current = 0) :
    Returns v ⟨[],
      { current with
        old := current.old - slideUp v op current, new := current.new - slideUp v op current },
      growAfter (op.old + op.count - slideUp v op current)
        (current.new + current.count - slideUp v op current) (slideUp v op current) after⟩ := by
  obtain ⟨hinsert, -⟩ := slideUp_spec hslides
  have hslid := leads_slideUp h hkeep hslides
  rw [hall] at hslid
  generalize slideUp v op current = n at *
  obtain ⟨kept, rest, hgrown, hkept⟩ := exists_growAfter_eq (op.old + op.count - n)
    (current.new + current.count - n) n after
  rw [hgrown] at hslid ⊢
  refine ⟨rfl, kept, rest, rfl, hkept, ?_⟩
  obtain ⟨action, old, new, count⟩ := op
  obtain ⟨action', old', new', count'⟩ := current
  obtain ⟨action'', old'', new'', count''⟩ := kept
  obtain rfl : action = .keep := hkeep
  obtain rfl : action' = .insert := hinsert
  obtain rfl : action'' = .keep := hkept
  obtain ⟨hcount, -, -, hsame, -⟩ := leads_keep.1 h
  obtain ⟨hcount', hnew, hslid⟩ := leads_insert.1 hslid
  obtain ⟨hcount'', rfl, -, -, -⟩ := leads_keep.1 hslid
  simp only at hnew hcount ⊢
  rw [slideDown, if_pos rfl, hnew]
  exact Versions.sameFront_ne_zero (by simpa using hcount'') (by simpa using hcount')
    (by simpa using hsame 0 hcount)

/-- On its way to the front an operation leaves the script right at its beginning, or it can go
back. -/
theorem starts_up {f : Focus} {start : Nat} (hleads : Leads v x y f.script x' y')
    (haction : f.current.action ≠ .keep) (h : f.Starts v start) : (f.up v).Starts v start := by
  fun_induction Focus.up v f with
  | case1 current after => exact h
  | case2 op before current after hkeep hnone ih =>
    have hpos := hleads.count_pos op (by simp [script])
    omega
  | case3 op before current after hkeep hsome n hn => exact h
  | case4 op before current after hkeep hsome n hn after' current' hall ih =>
    have hright := h.cons
    rw [script_cons_before] at hleads
    have hslid := hleads.append_congr fun x y h => leads_slideUp h hkeep hn
    rw [hall] at hslid
    refine ih hslid haction ?_
    cases before with
    | nil => exact .inr (returns_slideUp hleads hkeep hn hall)
    | cons op' before => exact .inl (hright.append_of_ne_nil hkeep (by simp))
  | case5 op before current after hkeep hsome n hn after' current' hpart ih =>
    have hright := h.cons
    rw [script_cons_before] at hleads
    have hslid := hleads.append_congr fun x y h => leads_slideUp h hkeep hn
    rw [keepOf_eq_singleton hkeep hpart] at hslid
    rw [script_cons_before] at ih
    have hstart : StartsRight start ({ op with count := op.count - n } :: current' :: after') :=
      startsRight_cons_of_ne (by simp [hkeep])
    refine ih hslid haction (.inl ?_)
    rw [script_cons_before]
    exact hright.append_keep hkeep hstart
  | case6 op before current after hkeep hsame ih =>
    have hright := h.cons
    rw [script_cons_before] at hleads
    exact ih (hleads.append_congr fun x y h => leads_merge h hsame hkeep) hkeep
      (.inl (hright.merge hsame))
  | case7 op before current after hkeep hother ih =>
    have hright := h.cons
    rw [script_cons_before] at hleads
    exact ih (hleads.append_congr fun x y h => leads_swap h hother hkeep haction) haction
      (.inl (hright.swap hother hkeep haction))

theorem not_returns_of_ne {before after : List Operation} (hchange : op.action ≠ .keep) :
    ¬ Returns v ⟨before, current, op :: after⟩ := by
  rintro ⟨-, kept, rest, heq, hkeep, -⟩
  obtain ⟨rfl, -⟩ := List.cons.inj heq
  exact hchange hkeep

/-- An insertion that slides leaves kept lines in front of it. -/
theorem Starts.slide {before after : List Operation} (h : Starts v x ⟨before, current, op :: after⟩)
    (hinsert : current.action = .insert) (hkeep : op.action = .keep) (old new n : Nat)
    (ops : List Operation) : StartsRight x (before.reverse ++ ⟨.keep, old, new, n⟩ :: ops) := by
  have hstart : StartsRight x (⟨.keep, old, new, n⟩ :: ops) := startsRight_cons_of_ne (by simp)
  rcases h with hright | ⟨hnil, -⟩
  · refine hright.append_congr (fun _ => hstart) fun hfirst => ?_
    simp [DeletesFirst, hinsert, hkeep] at hfirst
  · obtain rfl : before = [] := hnil
    exact hstart

/-- On its way to the back an operation leaves the script right at its beginning, also when it had
come to the front only for now. -/
theorem startsRight_down {f : Focus} {start : Nat} (hleads : Leads v x y f.script x' y')
    (haction : f.current.action ≠ .keep) (h : f.Starts v start) :
    StartsRight start (f.down v).script := by
  fun_induction Focus.down v f with
  | case1 before current =>
    refine h.resolve_right ?_
    rintro ⟨-, kept, rest, heq, -⟩
    simp at heq
  | case2 before current op after hkeep hnone ih =>
    have hpos := hleads.count_pos op (by simp [script])
    omega
  | case3 before current op after hkeep hsome n hn =>
    refine h.resolve_right ?_
    rintro ⟨-, kept, rest, heq, -, hslides⟩
    obtain ⟨rfl, -⟩ := List.cons.inj heq
    exact hslides hn
  | case4 before current op after hkeep hsome n hn before' current' hall ih =>
    have hslid := hleads.append_congr fun x y h => leads_slideDown h hkeep hn
    rw [hall] at hslid
    have hright := h.slide (slideDown_spec hn).1 hkeep op.old current.new n (current' :: after)
    exact ih (leads_growBefore hslid) haction (.inl hright.growBefore)
  | case5 before current op after hkeep hsome n hn before' current' hpart ih =>
    have hslid := hleads.append_congr fun x y h => leads_slideDown h hkeep hn
    rw [keepOf, if_neg hpart] at hslid
    have hright := h.slide (slideDown_spec hn).1 hkeep op.old current.new n
      (current' :: ⟨.keep, op.old + n, op.new + n, op.count - n⟩ :: after)
    exact ih (leads_growBefore hslid) haction (.inl hright.growBefore)
  | case6 before current op after hkeep hsame ih =>
    have hright : StartsRight start (before.reverse ++ current :: op :: after) :=
      h.resolve_right (not_returns_of_ne hkeep)
    exact ih (hleads.append_congr fun x y h => leads_merge h hsame.symm haction) haction
      (.inl (hright.merge hsame.symm))
  | case7 before current op after hkeep hother ih =>
    have hright : StartsRight start (before.reverse ++ current :: op :: after) :=
      h.resolve_right (not_returns_of_ne hkeep)
    have hswapped := hright.swap (Ne.symm hother) haction hkeep
    rw [script_cons_before] at ih
    refine ih ?_ haction (.inl ?_)
    · exact hleads.append_congr fun x y h => leads_swap h (Ne.symm hother) haction hkeep
    · rwa [script_cons_before]

end Focus

/-! ### The whole script -/

/-- A pass leaves the beginning of a script right. -/
theorem startsRight_settle {action : Action} {start : Nat} (haction : action ≠ .keep) (visits : Nat)
    (before after : List Operation) (hleads : Leads v x y (before.reverse ++ after) x' y')
    (h : StartsRight start (before.reverse ++ after)) :
    StartsRight start (settle v action visits before after) := by
  fun_induction settle v action visits before after with
  | case1 before after => exact h
  | case2 visits before hvisits => simpa using h
  | case3 visits before op after hmoved f ih =>
    have hup := Focus.leads_up (f := ⟨before, op, after⟩) hleads (hmoved ▸ haction)
    have hstarts := Focus.starts_up (f := ⟨before, op, after⟩) hleads (hmoved ▸ haction) (.inl h)
    have hchange : (Focus.up v ⟨before, op, after⟩).current.action ≠ .keep := by
      simpa [hmoved] using haction
    have hdown : Leads v x y f.script x' y' := Focus.leads_down hup hchange
    have hright : StartsRight start f.script := Focus.startsRight_down hup hchange hstarts
    refine ih ?_ ?_
    · simpa [Focus.script] using hdown
    · simpa [Focus.script] using hright
  | case4 visits before op after hother ih =>
    refine ih ?_ ?_
    · simpa using hleads
    · simpa using h

theorem StartsRight.append (h : StartsRight x front) (hnil : front = [] → StartsRight x ops) :
    StartsRight x (front ++ ops) := by
  cases front with
  | nil => exact hnil rfl
  | cons op front =>
    intro hinsert
    refine (h hinsert).imp_right fun hfirst => ?_
    rw [← List.append_nil front] at hfirst
    exact hfirst.append_congr False.elim

theorem startsRight_keepOf (old new count : Nat) : StartsRight x (keepOf old new count) := by
  unfold keepOf
  split
  · trivial
  · exact startsRight_cons_of_ne (by simp)

/-- The script of a region starts at the front of the region. -/
theorem startsRight_scriptOf (v : Versions) (r : Region) (hold : r.oldStart ≤ r.oldStop)
    (hnew : r.newStart ≤ r.newStop) : StartsRight r.oldStart (v.scriptOf r) := by
  induction r using Versions.scriptOf.induct v with
  | case1 r front afterFront back inside ihleft =>
    obtain ⟨holdStart, -, -, -, -⟩ := Versions.inner_spec hold hnew (v := v)
    obtain ⟨changes, hscript, hcases⟩ := Versions.scriptOf_cases v r
    rw [hscript, List.append_assoc]
    refine (startsRight_keepOf _ _ _).append fun hfront => ?_
    have hnone : v.sameFront r = 0 := by simpa [keepOf] using hfront
    rw [hnone, Nat.add_zero] at holdStart
    refine StartsRight.append ?_ fun _ => startsRight_keepOf _ _ _
    rcases hcases with ⟨rfl, -⟩ | ⟨rfl, -⟩ | ⟨rfl, -⟩ | ⟨rfl, -⟩ | ⟨left, right, hdivide, rfl⟩
    · trivial
    · exact startsRight_cons_of_ne (by simp [Region.deletion])
    · exact fun _ => .inl holdStart
    · exact startsRight_cons_of_ne (by simp [Region.deletion])
    · obtain ⟨place, -, hplace⟩ := Option.bind_eq_some_iff.1 hdivide
      obtain ⟨x, y, rfl, rfl, ⟨hx, -⟩, ⟨hy, -⟩, hmoves⟩ := Region.exists_eq_of_divide? hplace
      have hleft := ihleft _ _ hdivide hx hy
      rw [← holdStart]
      refine hleft.append fun hempty => ?_
      -- The left part is a proper one, so its script is not empty.
      have hleads := v.leads_scriptOf ⟨_, x, _, y⟩ hx hy
      rw [hempty] at hleads
      exact absurd hleads hmoves

/-- An insertion at the beginning of a compact script stands at the beginning of the old version,
unless lines are deleted before the first kept ones. -/
theorem startsRight_compact (v : Versions) : StartsRight 0 (compact v v.script) := by
  have hleads := leads_settle (v := v) (x := 0) (y := 0) (by simp : Action.delete ≠ .keep)
    (visitBound v.script) [] v.script v.leads_script
  have hscript : StartsRight 0 v.script :=
    startsRight_scriptOf v v.whole (Nat.zero_le _) (Nat.zero_le _)
  have hsettled := startsRight_settle (by simp : Action.delete ≠ .keep) (visitBound v.script) []
    v.script v.leads_script hscript
  exact startsRight_settle (by simp) _ [] _ hleads hsettled

end Diff
end BackingField
