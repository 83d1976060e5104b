import BackingField.Sorting
import Mathlib.Data.List.Sort

/-!
# Sorting is in order and stable

`sortBy` is the insertion sort of Mathlib for a comparison that is computed
(`sortBy_eq_insertionSort`), so what is known of that sort holds here.  For a total and transitive
comparison the sorted list is in order (`pairwise_sortBy`).  Elements of which each may stand before
the other come out in the order in which they went in (`filter_sortBy`).  No other list is in order
and keeps its equals as they came (`eq_of_filter_equals_eq`).
-/

namespace BackingField

variable {α : Type} {le : α → α → Bool}

/-! ### Sorting is the library's insertion sort -/

theorem insertBy_eq_orderedInsert (le : α → α → Bool) (a : α) (l : List α) :
    insertBy le a l = l.orderedInsert (fun a b => le a b = true) a := by
  induction l with
  | nil => rfl
  | cons b rest ih => rw [insertBy, List.orderedInsert_cons, ih]

theorem sortBy_eq_insertionSort (le : α → α → Bool) (l : List α) :
    sortBy le l = l.insertionSort fun a b => le a b = true := by
  induction l with
  | nil => rfl
  | cons a rest ih => rw [sortBy, ih, insertBy_eq_orderedInsert, List.insertionSort_cons]

/-- Sorting neither adds nor loses an element. -/
theorem sortBy_perm (le : α → α → Bool) (l : List α) : (sortBy le l).Perm l := by
  rw [sortBy_eq_insertionSort]
  exact List.perm_insertionSort _ l

theorem pairwise_sortBy (htrans : ∀ a b c, le a b = true → le b c = true → le a c = true)
    (htotal : ∀ a b, le a b = true ∨ le b a = true) (l : List α) :
    (sortBy le l).Pairwise fun a b => le a b = true := by
  have : IsTrans α fun a b => le a b = true := ⟨htrans⟩
  have : Std.Total fun a b => le a b = true := ⟨htotal⟩
  rw [sortBy_eq_insertionSort]
  exact List.pairwise_insertionSort _ l

theorem sortBy_eq_self {l : List α} (h : l.Pairwise fun a b => le a b = true) :
    sortBy le l = l := by
  rw [sortBy_eq_insertionSort]
  exact h.insertionSort_eq

/-- Elements that are each other's equals keep their order. -/
theorem filter_sortBy {p : α → Bool} (hp : ∀ a b, p a = true → p b = true → le a b = true)
    (l : List α) : (sortBy le l).filter p = l.filter p := by
  have hequals : (l.filter p).Pairwise fun a b => le a b = true := by
    refine List.pairwise_of_forall_mem_list fun a ha b hb => ?_
    exact hp a b (List.mem_filter.1 ha).2 (List.mem_filter.1 hb).2
  -- They come in order already, so sorting keeps them as a sublist, and there are no others.
  have hsublist : (l.filter p).Sublist ((sortBy le l).filter p) := by
    have hsorted := (List.sublist_insertionSort hequals List.filter_sublist).filter p
    rw [List.filter_filter] at hsorted
    simpa [sortBy_eq_insertionSort] using hsorted
  exact (hsublist.eq_of_length ((sortBy_perm le l).filter p).length_eq.symm).symm

/-! ### Lists in order -/

/-- In a list in order the first element may stand before each of them. -/
theorem le_of_mem_cons (hrefl : ∀ a, le a a = true) {a b : α} {l : List α}
    (h : (a :: l).Pairwise fun a b => le a b = true) (hb : b ∈ a :: l) : le a b = true := by
  rcases List.mem_cons.1 hb with rfl | hb
  · exact hrefl b
  · exact (List.pairwise_cons.1 h).1 b hb

theorem mem_of_filter_equals_eq (hrefl : ∀ a, le a a = true) {a : α} {l l' : List α}
    (h : (l.filter fun b => le a b && le b a) = l'.filter fun b => le a b && le b a)
    (ha : a ∈ l) : a ∈ l' := by
  have hmem : a ∈ l.filter fun b => le a b && le b a := List.mem_filter.2 ⟨ha, by simp [hrefl a]⟩
  rw [h] at hmem
  exact (List.mem_filter.1 hmem).1

/-- Lists in order are the same when each element has the same equals in both, in the same order. -/
theorem eq_of_filter_equals_eq (hrefl : ∀ a, le a a = true) {l l' : List α}
    (h : l.Pairwise fun a b => le a b = true) (h' : l'.Pairwise fun a b => le a b = true)
    (hequals : ∀ a, (l.filter fun b => le a b && le b a) = l'.filter fun b => le a b && le b a) :
    l = l' := by
  induction l generalizing l' with
  | nil =>
    cases l' with
    | nil => rfl
    | cons b l' =>
      have hb := mem_of_filter_equals_eq hrefl (hequals b).symm List.mem_cons_self
      exact absurd hb List.not_mem_nil
  | cons a l ih =>
    have ha := mem_of_filter_equals_eq hrefl (hequals a) List.mem_cons_self
    cases l' with
    | nil => exact absurd ha List.not_mem_nil
    | cons b l' =>
      have hb := mem_of_filter_equals_eq hrefl (hequals b).symm List.mem_cons_self
      have hab : le a b = true := le_of_mem_cons hrefl h hb
      have hba : le b a = true := le_of_mem_cons hrefl h' ha
      -- The two first elements are equals, and each comes first among its equals.
      obtain rfl : a = b := by
        have hfirst := hequals a
        simp only [List.filter_cons, hrefl a, hab, hba, Bool.and_self, if_true] at hfirst
        exact (List.cons.inj hfirst).1
      have hrest : ∀ c, (l.filter fun d => le c d && le d c) =
          l'.filter fun d => le c d && le d c := by
        intro c
        have hc := hequals c
        rw [List.filter_cons, List.filter_cons] at hc
        split at hc
        · exact (List.cons.inj hc).2
        · exact hc
      rw [ih (List.pairwise_cons.1 h).2 (List.pairwise_cons.1 h').2 hrest]

end BackingField
