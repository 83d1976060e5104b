import BackingField.Proofs.Splice.OnePass

/-!
# Splicing does not see the order of the edits

The comparison of edits looks at their spans only, so it is no order on the edits themselves: two
insertions at one offset are equals, and only the stability of sorting keeps them apart.  For any
edits there is nevertheless just one stable order (`Edit.InStableOrder.unique`).  So a list may be
rearranged as long as edits of one span stay in their order, and splicing has the same outcome
(`splice_eq_of_perm`).
-/

namespace BackingField

namespace Edit

variable {edits edits' order order' : List Edit}

/-- Edits of which each may stand before the other are edits of one span. -/
theorem le_and_le_iff {a b : Edit} :
    (le a b && le b a) = true ↔ b.start = a.start ∧ b.stop = a.stop := by
  rw [Bool.and_eq_true, le_iff, le_iff]
  omega

/-- No two orders of the same edits are stable. -/
theorem InStableOrder.unique (h : InStableOrder edits order) (h' : InStableOrder edits order') :
    order = order' := by
  have hrefl (a : Edit) : le a a = true := le_iff.2 (.inr ⟨rfl, Nat.le_refl _⟩)
  have hspan (a : Edit) (l : List Edit) : (l.filter fun b => le a b && le b a) =
      l.filter fun b => b.start = a.start ∧ b.stop = a.stop := by
    refine List.filter_congr fun b _ => ?_
    rw [Bool.eq_iff_iff, le_and_le_iff, decide_eq_true_iff]
  refine eq_of_filter_equals_eq hrefl (h.ascending.imp le_iff.2) (h'.ascending.imp le_iff.2) ?_
  intro a
  rw [hspan, hspan, h.stable, h'.stable]

/-- Rearranged edits have the same stable order. -/
theorem sorted_eq_of_perm (hperm : edits.Perm edits')
    (hstable : ∀ start stop, (edits.filter fun e => e.start = start ∧ e.stop = stop) =
      edits'.filter fun e => e.start = start ∧ e.stop = stop) : sorted edits = sorted edits' := by
  have hsorted := inStableOrder_sorted edits
  have hsorted' : InStableOrder edits' (sorted edits) :=
    ⟨hsorted.perm.trans hperm, hsorted.ascending, fun start stop =>
      (hsorted.stable start stop).trans (hstable start stop)⟩
  exact hsorted'.unique (inStableOrder_sorted edits')

end Edit

/-- Edits may be given in any order, but for those of one span among each other.  The outcome is the
same: the same text, or the same fault with the same overlapping or misplaced edits. -/
theorem splice_eq_of_perm (source : Text) {edits edits' : List Edit} (hperm : edits.Perm edits')
    (hstable : ∀ start stop, (edits.filter fun e => e.start = start ∧ e.stop = stop) =
      edits'.filter fun e => e.start = start ∧ e.stop = stop) :
    splice source edits = splice source edits' := by
  simp only [splice, Edit.sorted_eq_of_perm hperm hstable]

/-- Two insertions at one offset, and a deletion in front of them that may come first or last. -/
theorem splice_eq_of_perm_insertions :
    let edits : List Edit := [⟨2, 2, "y".toList⟩, ⟨2, 2, "z".toList⟩, ⟨0, 2, []⟩]
    let edits' : List Edit := [⟨0, 2, []⟩, ⟨2, 2, "y".toList⟩, ⟨2, 2, "z".toList⟩]
    (edits.Perm edits' ∧ ∀ start stop, (edits.filter fun e => e.start = start ∧ e.stop = stop) =
      edits'.filter fun e => e.start = start ∧ e.stop = stop) ∧
    splice "é|".toList edits = splice "é|".toList edits' ∧
    splice "é|".toList edits' = .ok "yz|".toList := by
  intro edits edits'
  have hperm : edits.Perm edits' := by decide
  have hstable : ∀ start stop, (edits.filter fun e => e.start = start ∧ e.stop = stop) =
      edits'.filter fun e => e.start = start ∧ e.stop = stop := by
    intro start stop
    by_cases hinsertion : start = 2
    · simp [edits, edits', List.filter_cons, hinsertion]
    · have hne : ¬ 2 = start := fun h => hinsertion h.symm
      simp [edits, edits', List.filter_cons, hne]
  exact ⟨⟨hperm, hstable⟩, splice_eq_of_perm _ hperm hstable, by rfl⟩

-- Two insertions at one offset cannot change places.
example : splice "|".toList [⟨0, 0, "y".toList⟩, ⟨0, 0, "z".toList⟩] = .ok "yz|".toList ∧
    splice "|".toList [⟨0, 0, "z".toList⟩, ⟨0, 0, "y".toList⟩] = .ok "zy|".toList :=
  ⟨rfl, rfl⟩

end BackingField
