import BackingField.Proofs.Diff.Scripts

/-!
# Compaction keeps a script right

Compaction changes a script by few moves: two operations of one kind become one, a deletion and an
insertion change places, and an insertion slides along kept lines that repeat its own.  Each of them
leaves a script that leads to the same place, so the compact form of a script leads where the script
does (`leads_compact`).
-/

namespace BackingField
namespace Diff

variable {v : Versions} {x y x' y' n : Nat} {op current : Operation} {ops : List Operation}

/-! ### The moves -/

theorem leads_merge (h : Leads v x y (op :: current :: ops) x' y')
    (hsame : op.action = current.action) (hkeep : op.action ≠ .keep) :
    Leads v x y ({ op with count := op.count + current.count } :: ops) x' y' := by
  obtain ⟨action, old, new, count⟩ := op
  obtain ⟨action', old', new', count'⟩ := current
  obtain rfl : action = action' := hsame
  cases action with
  | keep => exact absurd rfl hkeep
  | delete =>
    obtain ⟨hcount, rfl, h⟩ := leads_delete.1 h
    obtain ⟨hcount', rfl, h⟩ := leads_delete.1 h
    exact leads_delete.2 ⟨Nat.add_pos_left hcount _, rfl, by rwa [← Nat.add_assoc]⟩
  | insert =>
    obtain ⟨hcount, rfl, h⟩ := leads_insert.1 h
    obtain ⟨hcount', rfl, h⟩ := leads_insert.1 h
    exact leads_insert.2 ⟨Nat.add_pos_left hcount _, rfl, by rwa [← Nat.add_assoc]⟩

theorem leads_swap (h : Leads v x y (op :: current :: ops) x' y')
    (hother : op.action ≠ current.action) (hkeep : op.action ≠ .keep)
    (hkeep' : current.action ≠ .keep) : Leads v x y (current :: op :: ops) x' y' := by
  obtain ⟨action, old, new, count⟩ := op
  obtain ⟨action', old', new', count'⟩ := current
  cases action with
  | keep => exact absurd rfl hkeep
  | delete =>
    obtain rfl : action' = .insert := by cases action' <;> simp_all
    obtain ⟨hcount, rfl, h⟩ := leads_delete.1 h
    obtain ⟨hcount', rfl, h⟩ := leads_insert.1 h
    exact leads_insert.2 ⟨hcount', rfl, leads_delete.2 ⟨hcount, rfl, h⟩⟩
  | insert =>
    obtain rfl : action' = .delete := by cases action' <;> simp_all
    obtain ⟨hcount, rfl, h⟩ := leads_insert.1 h
    obtain ⟨hcount', rfl, h⟩ := leads_delete.1 h
    exact leads_delete.2 ⟨hcount', rfl, leads_insert.2 ⟨hcount, rfl, h⟩⟩

theorem leads_growAfter {old new : Nat} (h : Leads v x y (⟨.keep, old, new, n⟩ :: ops) x' y') :
    Leads v x y (growAfter old new n ops) x' y' := by
  cases ops with
  | nil => exact h
  | cons op ops =>
    rw [growAfter]
    split
    · next hkeep =>
      obtain ⟨action, old', new', count⟩ := op
      obtain rfl : action = .keep := hkeep
      obtain ⟨hn, rfl, rfl, hsame, h⟩ := leads_keep.1 h
      obtain ⟨hcount, rfl, rfl, hsame', h⟩ := leads_keep.1 h
      refine leads_keep.2 ⟨Nat.add_pos_left hcount n, Nat.add_sub_cancel _ n,
        Nat.add_sub_cancel _ n, ?_, ?_⟩
      · rw [Nat.add_comm]
        exact Versions.same_add.2 ⟨hsame, hsame'⟩
      · rwa [Nat.add_comm count, ← Nat.add_assoc, ← Nat.add_assoc]
    · exact h

theorem leads_growBefore {old new : Nat} {before : List Operation}
    (h : Leads v x y (before.reverse ++ ⟨.keep, old, new, n⟩ :: ops) x' y') :
    Leads v x y ((growBefore old new n before).reverse ++ ops) x' y' := by
  cases before with
  | nil => exact h
  | cons op before =>
    rw [growBefore]
    split
    · next hkeep =>
      obtain ⟨action, old', new', count⟩ := op
      obtain rfl : action = .keep := hkeep
      rw [List.reverse_cons, List.append_assoc, List.singleton_append] at h ⊢
      refine h.append_congr fun x y h => ?_
      obtain ⟨hcount, rfl, rfl, hsame, h⟩ := leads_keep.1 h
      obtain ⟨hn, rfl, rfl, hsame', h⟩ := leads_keep.1 h
      refine leads_keep.2 ⟨by omega, rfl, rfl, Versions.same_add.2 ⟨hsame, hsame'⟩, ?_⟩
      rwa [← Nat.add_assoc, ← Nat.add_assoc]
    · simpa using h

/-- Kept lines, unless there are none, in front of what goes on behind them. -/
theorem leads_keepOf_append (hsame : v.Same x y n) (h : Leads v (x + n) (y + n) ops x' y') :
    Leads v x y (keepOf x y n ++ ops) x' y' :=
  leads_append.2 ⟨_, _, leads_keepOf hsame, h⟩

/-- Only an insertion slides, and the lines that it slides over repeat its own. -/
theorem slideUp_spec (hslides : slideUp v op current ≠ 0) :
    current.action = .insert ∧ slideUp v op current ≤ op.count ∧
      slideUp v op current ≤ current.count ∧
      v.Same (op.old + op.count - slideUp v op current)
        (current.new + current.count - slideUp v op current) (slideUp v op current) := by
  unfold slideUp at *
  split at hslides
  · next hinsert =>
    rw [if_pos hinsert] at *
    obtain ⟨hold, hnew, hsame⟩ := v.sameBack_spec
      ⟨op.old, op.old + op.count, current.new, current.new + current.count⟩
    simp only [Region.oldCount, Region.newCount, Nat.add_sub_cancel_left] at hold hnew
    exact ⟨hinsert, hold, hnew, hsame⟩
  · exact absurd rfl hslides

theorem slideDown_spec (hslides : slideDown v op current ≠ 0) :
    current.action = .insert ∧ slideDown v op current ≤ op.count ∧
      slideDown v op current ≤ current.count ∧
      v.Same op.old current.new (slideDown v op current) := by
  unfold slideDown at *
  split at hslides
  · next hinsert =>
    rw [if_pos hinsert] at *
    obtain ⟨hold, hnew, hsame⟩ := v.sameFront_spec
      ⟨op.old, op.old + op.count, current.new, current.new + current.count⟩
    simp only [Region.oldCount, Region.newCount, Nat.add_sub_cancel_left] at hold hnew
    exact ⟨hinsert, hold, hnew, hsame⟩
  · exact absurd rfl hslides

theorem leads_slideUp (h : Leads v x y (op :: current :: ops) x' y') (hkeep : op.action = .keep)
    (hslides : slideUp v op current ≠ 0) :
    Leads v x y (keepOf op.old op.new (op.count - slideUp v op current) ++
      { current with
        old := current.old - slideUp v op current, new := current.new - slideUp v op current } ::
      growAfter (op.old + op.count - slideUp v op current)
        (current.new + current.count - slideUp v op current) (slideUp v op current) ops) x' y' := by
  obtain ⟨hinsert, hle, hle', hrepeat⟩ := slideUp_spec hslides
  generalize slideUp v op current = n at *
  obtain ⟨action, old, new, count⟩ := op
  obtain ⟨action', old', new', count'⟩ := current
  obtain rfl : action = .keep := hkeep
  obtain rfl : action' = .insert := hinsert
  obtain ⟨hcount, rfl, rfl, hsame, h⟩ := leads_keep.1 h
  obtain ⟨hcount', rfl, h⟩ := leads_insert.1 h
  simp only at hle hle' hrepeat ⊢
  obtain ⟨m, rfl⟩ := Nat.exists_eq_add_of_le' hle
  obtain ⟨hfront, hback⟩ := Versions.same_add.1 hsame
  have hold : old + (m + n) - n = old + m := by omega
  have hnew : new + (m + n) - n = new + m := by omega
  have hnewStop : new + (m + n) + count' - n = new + m + count' := by omega
  rw [hold, hnewStop] at hrepeat
  rw [Nat.add_sub_cancel, hold, hnew, hnewStop]
  refine leads_keepOf_append hfront (leads_insert.2 ⟨hcount', rfl, leads_growAfter ?_⟩)
  refine leads_keep.2 ⟨Nat.pos_of_ne_zero hslides, rfl, rfl, hrepeat, ?_⟩
  have hnewEnd : new + m + count' + n = new + (m + n) + count' := by omega
  rwa [Nat.add_assoc old, hnewEnd]

theorem leads_slideDown (h : Leads v x y (current :: op :: ops) x' y') (hkeep : op.action = .keep)
    (hslides : slideDown v op current ≠ 0) :
    Leads v x y (⟨.keep, op.old, current.new, slideDown v op current⟩ ::
      { current with
        old := current.old + slideDown v op current,
        new := current.new + slideDown v op current } ::
      (keepOf (op.old + slideDown v op current) (op.new + slideDown v op current)
        (op.count - slideDown v op current) ++ ops)) x' y' := by
  obtain ⟨hinsert, hle, hle', hrepeat⟩ := slideDown_spec hslides
  generalize slideDown v op current = n at *
  obtain ⟨action, old, new, count⟩ := op
  obtain ⟨action', old', new', count'⟩ := current
  obtain rfl : action = .keep := hkeep
  obtain rfl : action' = .insert := hinsert
  obtain ⟨hcount', rfl, h⟩ := leads_insert.1 h
  obtain ⟨hcount, rfl, rfl, hsame, h⟩ := leads_keep.1 h
  simp only at hle hle' hrepeat ⊢
  obtain ⟨m, rfl⟩ := Nat.exists_eq_add_of_le hle
  obtain ⟨-, hback⟩ := Versions.same_add.1 hsame
  rw [Nat.add_sub_cancel_left]
  refine leads_keep.2 ⟨Nat.pos_of_ne_zero hslides, rfl, rfl, hrepeat, ?_⟩
  refine leads_insert.2 ⟨hcount', rfl, ?_⟩
  have hnew : new' + n + count' = new' + count' + n := by omega
  rw [hnew]
  refine leads_keepOf_append hback ?_
  rwa [Nat.add_assoc, Nat.add_assoc (new' + count')]

/-! ### The passes -/

/-- The script with the focus in its place. -/
def Focus.script (f : Focus) : List Operation :=
  f.before.reverse ++ f.current :: f.after

namespace Focus

@[simp] theorem action_up (v : Versions) (f : Focus) :
    (f.up v).current.action = f.current.action := by
  fun_induction Focus.up v f with
  | case1 | case3 => rfl
  | case2 _ _ _ _ _ _ ih => exact ih
  | case4 _ _ _ _ _ _ _ _ _ _ _ ih => exact ih
  | case5 _ _ _ _ _ _ _ _ _ _ _ ih => exact ih
  | case6 _ _ _ _ _ hsame ih => exact ih.trans hsame
  | case7 _ _ _ _ _ _ ih => exact ih

theorem script_cons_before (op : Operation) (before : List Operation) (current : Operation)
    (after : List Operation) :
    script ⟨op :: before, current, after⟩ = before.reverse ++ op :: current :: after := by
  simp [script]

theorem keepOf_eq_singleton (hkeep : op.action = .keep) (hn : n ≠ 0) :
    keepOf op.old op.new n = [{ op with count := n }] := by
  rw [keepOf, if_neg hn, ← hkeep]

/-- On its way to the front an operation leaves a script right. -/
theorem leads_up {f : Focus} (h : Leads v x y f.script x' y') (haction : f.current.action ≠ .keep) :
    Leads v x y (f.up v).script x' y' := by
  fun_induction Focus.up v f with
  | case1 current after => exact h
  | case2 op before current after hkeep hnone ih =>
    have hpos := h.count_pos op (by simp [script])
    omega
  | case3 op before current after hkeep hsome n hn => exact h
  | case4 op before current after hkeep hsome n hn after' current' hall ih =>
    rw [script_cons_before] at h
    have hslid := h.append_congr fun x y h => leads_slideUp h hkeep hn
    rw [hall] at hslid
    exact ih hslid haction
  | case5 op before current after hkeep hsome n hn after' current' hpart ih =>
    rw [script_cons_before] at h
    have hslid := h.append_congr fun x y h => leads_slideUp h hkeep hn
    rw [keepOf_eq_singleton hkeep hpart] at hslid
    refine ih ?_ haction
    rw [script_cons_before]
    exact hslid
  | case6 op before current after hkeep hsame ih =>
    rw [script_cons_before] at h
    exact ih (h.append_congr fun x y h => leads_merge h hsame hkeep) hkeep
  | case7 op before current after hkeep hother ih =>
    rw [script_cons_before] at h
    exact ih (h.append_congr fun x y h => leads_swap h hother hkeep haction) haction

/-- So it does on its way to the back. -/
theorem leads_down {f : Focus} (h : Leads v x y f.script x' y')
    (haction : f.current.action ≠ .keep) : Leads v x y (f.down v).script x' y' := by
  fun_induction Focus.down v f with
  | case1 before current => exact h
  | case2 before current op after hkeep hnone ih =>
    have hpos := h.count_pos op (by simp [script])
    omega
  | case3 before current op after hkeep hsome n hn => exact h
  | case4 before current op after hkeep hsome n hn before' current' hall ih =>
    have hslid := h.append_congr fun x y h => leads_slideDown h hkeep hn
    rw [hall] at hslid
    exact ih (leads_growBefore hslid) haction
  | case5 before current op after hkeep hsome n hn before' current' hpart ih =>
    have hslid := h.append_congr fun x y h => leads_slideDown h hkeep hn
    rw [keepOf, if_neg hpart] at hslid
    exact ih (leads_growBefore hslid) haction
  | case6 before current op after hkeep hsame ih =>
    exact ih (h.append_congr fun x y h => leads_merge h hsame.symm haction) haction
  | case7 before current op after hkeep hother ih =>
    refine ih ?_ haction
    rw [script_cons_before]
    exact h.append_congr fun x y h => leads_swap h (Ne.symm hother) haction hkeep

end Focus

/-- A pass leaves a script right. -/
theorem leads_settle {action : Action} (haction : action ≠ .keep) (visits : Nat)
    (before after : List Operation) (h : Leads v x y (before.reverse ++ after) x' y') :
    Leads v x y (settle v action visits before after) x' y' := by
  fun_induction settle v action visits before after with
  | case1 before after => exact h
  | case2 visits before hvisits => simpa using h
  | case3 visits before op after hmoved f ih =>
    have hup : Leads v x y (Focus.up v ⟨before, op, after⟩).script x' y' :=
      Focus.leads_up h (hmoved ▸ haction)
    have hdown : Leads v x y f.script x' y' :=
      Focus.leads_down hup (by simpa [hmoved] using haction)
    refine ih ?_
    simpa [Focus.script] using hdown
  | case4 visits before op after hother ih =>
    refine ih ?_
    simpa using h

/-- The compact form of a script leads where the script does. -/
theorem leads_compact (h : Leads v x y ops x' y') : Leads v x y (compact v ops) x' y' := by
  unfold compact
  exact leads_settle (by simp) _ [] _ (leads_settle (by simp) _ [] ops h)

end Diff
end BackingField
