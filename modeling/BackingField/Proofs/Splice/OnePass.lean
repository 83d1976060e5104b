import BackingField.Proofs.Expansion.Replacement
import BackingField.Proofs.Sorting
import BackingField.Proofs.Text.Slices

/-!
# Splicing is one pass over the source

Edits are compared only with their neighbours and are made from the last to the first, in a text
that the later ones have changed already.  The outcome is described in terms of the source alone:
`Splice.onePass` goes through the edits from left to right and takes what lies between them from the
source.  Overlaps of any two edits are found, misplaced edits are those whose ends are no boundaries
of the source, and everything else comes to `Splice.onePass` (`splice_outcome`).
-/

namespace BackingField

open Text

namespace Edit

variable {a b : Edit} {edits : List Edit} {source : Text}

/-- The edits in ascending order of their spans, where edits of one span stand as they came. -/
structure InStableOrder (edits order : List Edit) : Prop where
  perm : order.Perm edits
  ascending : order.Pairwise fun a b => a.start < b.start ∨ a.start = b.start ∧ a.stop ≤ b.stop
  stable : ∀ start stop, (order.filter fun e => e.start = start ∧ e.stop = stop) =
    edits.filter fun e => e.start = start ∧ e.stop = stop

/-- The span begins and ends between characters of the text. -/
structure FitsIn (e : Edit) (source : Text) : Prop where
  start : IsBoundary source e.start
  stop : IsBoundary source e.stop

/-! ### The order of edits -/

theorem le_iff : le a b = true ↔ a.start < b.start ∨ a.start = b.start ∧ a.stop ≤ b.stop := by
  unfold le compare
  rcases Nat.lt_trichotomy a.start b.start with hlt | heq | hgt
  · simp [Nat.compare_eq_lt.2 hlt, hlt]
  · simp [heq, Nat.isLE_compare]
  · have hnot : ¬ a.start < b.start := by omega
    have hne : a.start ≠ b.start := by omega
    simp [Nat.compare_eq_gt.2 hgt, hnot, hne]

theorem mem_sorted {e : Edit} : e ∈ sorted edits ↔ e ∈ edits :=
  (sortBy_perm le edits).mem_iff

theorem inStableOrder_sorted (edits : List Edit) : InStableOrder edits (sorted edits) where
  perm := sortBy_perm le edits
  ascending := by
    have htrans : ∀ a b c, le a b = true → le b c = true → le a c = true := by
      intro a b c hab hbc
      rw [le_iff] at hab hbc ⊢
      omega
    have htotal : ∀ a b, le a b = true ∨ le b a = true := by
      intro a b
      rw [le_iff, le_iff]
      omega
    exact (pairwise_sortBy htrans htotal edits).imp le_iff.1
  stable := by
    intro start stop
    refine filter_sortBy (fun a b ha hb => ?_) edits
    simp only [decide_eq_true_eq] at ha hb
    rw [le_iff]
    omega

/-! ### One edit -/

theorem fitsIn_iff {e : Edit} :
    e.FitsIn source ↔ IsBoundary source e.start ∧ IsBoundary source e.stop :=
  ⟨fun h => ⟨h.start, h.stop⟩, fun h => ⟨h.1, h.2⟩⟩

instance (e : Edit) (source : Text) : Decidable (e.FitsIn source) :=
  decidable_of_iff _ fitsIn_iff.symm

/-- An edit can be made where its span fits. -/
theorem applyTo?_eq_none_iff {e : Edit} : e.applyTo? source = none ↔ ¬ e.FitsIn source := by
  rw [fitsIn_iff, isBoundary_iff_isSome_cut?, isBoundary_iff_isSome_cut?, applyTo?]
  cases cut? source e.start with
  | none => simp
  | some before =>
    cases cut? source e.stop with
    | none => simp
    | some after => simp

/-- Behind the end of an edit the text may be another one. -/
theorem fitsIn_append_iff {e : Edit} {s t t' : Text} (hspan : e.start ≤ e.stop)
    (hstop : e.stop ≤ size s) : e.FitsIn (s ++ t) ↔ e.FitsIn (s ++ t') := by
  have hboundary {n : Nat} (hn : n ≤ size s) : IsBoundary (s ++ t) n ↔ IsBoundary (s ++ t') n := by
    rw [isBoundary_append_of_le hn, isBoundary_append_of_le hn]
  constructor
  · intro h
    exact ⟨(hboundary (by omega)).1 h.start, (hboundary hstop).1 h.stop⟩
  · intro h
    exact ⟨(hboundary (by omega)).2 h.start, (hboundary hstop).2 h.stop⟩

end Edit

namespace Splice

variable {edits : List Edit} {source : Text}

/-- The source from an offset on with edits made, in one pass from left to right: what lies between
two spans is taken from the source. -/
def onePass (source : Text) (offset : Nat) : List Edit → Text
  | [] => slice source offset (size source)
  | e :: edits => slice source offset e.start ++ e.newText ++ onePass source e.stop edits

/-- Of any two edits the first ends in front of the second. -/
def Disjoint (edits : List Edit) : Prop :=
  edits.Pairwise fun a b => a.stop ≤ b.start

/-- Edits that can all be made in a text, in the order in which they stand. -/
structure Placed (source : Text) (edits : List Edit) : Prop where
  span : ∀ e ∈ edits, e.start ≤ e.stop
  disjoint : Disjoint edits
  fits : ∀ e ∈ edits, e.FitsIn source

theorem Placed.tail {e : Edit} (h : Placed source (e :: edits)) : Placed source edits where
  span f hf := h.span f (List.mem_cons_of_mem e hf)
  disjoint := (List.pairwise_cons.1 h.disjoint).2
  fits f hf := h.fits f (List.mem_cons_of_mem e hf)

theorem Placed.stop_le {e : Edit} (h : Placed source (e :: edits)) :
    ∀ f ∈ edits, e.stop ≤ f.start :=
  (List.pairwise_cons.1 h.disjoint).1

/-- The first edit starts first. -/
theorem Placed.start_le {e : Edit} (h : Placed source (e :: edits)) :
    ∀ f ∈ e :: edits, e.start ≤ f.start := by
  intro f hf
  rcases List.mem_cons.1 hf with rfl | hf
  · exact Nat.le_refl _
  · have hspan := h.span e (by simp)
    have hstop := h.stop_le f hf
    omega

/-! ### Overlaps -/

/-- It is enough to compare neighbours, because no edit ends in front of its own start. -/
theorem firstOverlap?_eq_none_iff (hspan : ∀ e ∈ edits, e.start ≤ e.stop) :
    firstOverlap? edits = none ↔ Disjoint edits := by
  refine ⟨fun h => ?_, firstOverlap?_eq_none⟩
  induction edits with
  | nil => exact List.Pairwise.nil
  | cons a edits ih =>
    have hrest : ∀ e ∈ edits, e.start ≤ e.stop := fun e he => hspan e (List.mem_cons_of_mem a he)
    cases edits with
    | nil => exact List.pairwise_singleton _ a
    | cons b edits =>
      rw [firstOverlap?] at h
      split at h
      · simp at h
      · next hab =>
        have hlater := ih hrest h
        refine List.pairwise_cons.2 ⟨fun c hc => ?_, hlater⟩
        rcases List.mem_cons.1 hc with rfl | hc
        · omega
        · -- Behind `b` everything starts at the end of `b` or later.
          have hb : b.start ≤ b.stop := hrest b (by simp)
          have hbc : b.stop ≤ c.start := (List.pairwise_cons.1 hlater).1 c hc
          omega

/-! ### From the last edit to the first -/

/-- Edits that fit are made, and the source up to an offset in front of them stays as it is. -/
theorem applyBackwards_eq_ok {offset : Nat} (h : Placed source edits)
    (hoffset : IsBoundary source offset) (hle : ∀ e ∈ edits, offset ≤ e.start) :
    applyBackwards source edits = .ok (slice source 0 offset ++ onePass source offset edits) := by
  induction edits generalizing offset with
  | nil =>
    have hwhole := slice_append_slice (isBoundary_zero source) hoffset (isBoundary_size source)
      (Nat.zero_le _) hoffset.le_size
    rw [onePass, hwhole, slice_zero_size]
    rfl
  | cons e edits ih =>
    obtain ⟨hstart, hstop⟩ := h.fits e (by simp)
    have hlater := ih h.tail hstop h.stop_le
    -- The span of the edit is still in place, between what is kept and what was made.
    have hkept := slice_append_slice (isBoundary_zero source) hstart hstop (Nat.zero_le _)
      (h.span e (by simp))
    have hfront := slice_append_slice (isBoundary_zero source) hoffset hstart (Nat.zero_le _)
      (hle e (by simp))
    have hsize := size_slice (isBoundary_zero source) hstart (Nat.zero_le _)
    have hsize' := size_slice (isBoundary_zero source) hstop (Nat.zero_le _)
    have hmade := Edit.applyTo?_append (slice source 0 e.start) (slice source e.start e.stop)
      (onePass source e.stop edits) e.newText
    rw [hkept, ← List.append_assoc, hkept] at hmade
    rw [show size (slice source 0 e.start) = e.start by omega,
      show size (slice source 0 e.stop) = e.stop by omega] at hmade
    simp only [applyBackwards, hlater, bind, Except.bind, hmade, onePass, ← hfront, List.append_assoc]

/-- Edits that fit come to one pass over the source. -/
theorem applyBackwards_eq_onePass (h : Placed source edits) :
    applyBackwards source edits = .ok (onePass source 0 edits) := by
  have hmade := applyBackwards_eq_ok h (isBoundary_zero source) (fun e _ => Nat.zero_le e.start)
  have hnothing : slice source 0 0 = [] := sliceFrom_eq_nil_of_behind (Nat.le_refl 0)
  rw [hnothing, List.nil_append] at hmade
  exact hmade

/-- When the later edits are made, an edit fits in the result exactly if it fits in the source. -/
theorem fitsIn_iff_of_applyBackwards {e : Edit} {t : Text} (hspan : e.start ≤ e.stop)
    (hfirst : ∀ f ∈ edits, e.stop ≤ f.start) (hlater : Placed source edits)
    (h : applyBackwards source edits = .ok t) : e.FitsIn t ↔ e.FitsIn source := by
  cases edits with
  | nil =>
    obtain rfl : source = t := by simpa [applyBackwards] using h
    rfl
  | cons f edits =>
    -- Up to the start of the next edit the text is the source.
    have hstart := (hlater.fits f (by simp)).start
    rw [applyBackwards_eq_ok hlater hstart hlater.start_le] at h
    have ht := Except.ok.inj h
    have hsize := size_slice (isBoundary_zero source) hstart (Nat.zero_le _)
    have hstop : e.stop ≤ size (slice source 0 f.start) := by
      have hef := hfirst f (by simp)
      omega
    have hsource := slice_append_slice (isBoundary_zero source) hstart (isBoundary_size source)
      (Nat.zero_le _) hstart.le_size
    rw [slice_zero_size] at hsource
    rw [← ht, Edit.fitsIn_append_iff hspan hstop, hsource]

/-- Disjoint edits are refused as soon as one of them does not fit in the source. -/
theorem applyBackwards_eq_error (hspan : ∀ e ∈ edits, e.start ≤ e.stop)
    (hdisjoint : Disjoint edits) (hmisfit : ∃ e ∈ edits, ¬ e.FitsIn source) :
    ∃ e, applyBackwards source edits = .error (.misplaced e) := by
  induction edits with
  | nil => simp at hmisfit
  | cons e edits ih =>
    have hspan' : ∀ f ∈ edits, f.start ≤ f.stop := fun f hf => hspan f (List.mem_cons_of_mem e hf)
    obtain ⟨hfirst, hrest⟩ := List.pairwise_cons.1 hdisjoint
    by_cases hlater : ∃ f ∈ edits, ¬ f.FitsIn source
    · obtain ⟨f, hf⟩ := ih hspan' hrest hlater
      exact ⟨f, by simp only [applyBackwards, hf, bind, Except.bind]⟩
    · have hplaced : Placed source edits := ⟨hspan', hrest, fun f hf =>
        Decidable.byContradiction fun hnot => hlater ⟨f, hf, hnot⟩⟩
      have hnot : ¬ e.FitsIn source := by
        obtain ⟨f, hf, hnot⟩ := hmisfit
        rcases List.mem_cons.1 hf with rfl | hf
        · exact hnot
        · exact absurd (hplaced.fits f hf) hnot
      have hmade := applyBackwards_eq_onePass hplaced
      have hnone := Edit.applyTo?_eq_none_iff.2
        (mt (fitsIn_iff_of_applyBackwards (hspan e (by simp)) hfirst hplaced hmade).1 hnot)
      exact ⟨e, by simp only [applyBackwards, hmade, bind, Except.bind, hnone]⟩

end Splice

section Outcome

variable {source : Text} {edits : List Edit}

theorem splice_eq_overlap (hspan : ∀ e ∈ edits, e.start ≤ e.stop)
    (h : ¬ Splice.Disjoint (Edit.sorted edits)) :
    ∃ a b, splice source edits = .error (.overlap a b) := by
  have hsorted : ∀ e ∈ Edit.sorted edits, e.start ≤ e.stop :=
    fun e he => hspan e (Edit.mem_sorted.1 he)
  cases hfirst : Splice.firstOverlap? (Edit.sorted edits) with
  | none => exact absurd ((Splice.firstOverlap?_eq_none_iff hsorted).1 hfirst) h
  | some pair => exact ⟨pair.1, pair.2, by simp only [splice, hfirst]⟩

/-- Edits without an overlap all fit and are made, or one is reported as misplaced. -/
theorem splice_cases_of_disjoint (hspan : ∀ e ∈ edits, e.start ≤ e.stop)
    (h : Splice.Disjoint (Edit.sorted edits)) :
    ((∀ e ∈ edits, e.FitsIn source) ∧
        splice source edits = .ok (Splice.onePass source 0 (Edit.sorted edits))) ∨
      (∃ e ∈ edits, ¬ e.FitsIn source) ∧ ∃ e, splice source edits = .error (.misplaced e) := by
  have hsorted : ∀ e ∈ Edit.sorted edits, e.start ≤ e.stop :=
    fun e he => hspan e (Edit.mem_sorted.1 he)
  simp only [splice, Splice.firstOverlap?_eq_none h]
  by_cases hmisfit : ∃ e ∈ edits, ¬ e.FitsIn source
  · obtain ⟨e, he, hnot⟩ := hmisfit
    exact .inr ⟨⟨e, he, hnot⟩, Splice.applyBackwards_eq_error hsorted h
      ⟨e, Edit.mem_sorted.2 he, hnot⟩⟩
  · have hfits : ∀ e ∈ edits, e.FitsIn source := by
      intro e he
      exact Decidable.byContradiction fun hnot => hmisfit ⟨e, he, hnot⟩
    exact .inl ⟨hfits, Splice.applyBackwards_eq_onePass
      ⟨hsorted, h, fun e he => hfits e (Edit.mem_sorted.1 he)⟩⟩

/-- A span fits in the source unless it ends behind the source, or starts or ends inside a
character. -/
theorem Edit.not_fitsIn_iff {e : Edit} : ¬ e.FitsIn source ↔
    size source < e.stop ∨ ¬ IsBoundary source e.start ∨ ¬ IsBoundary source e.stop := by
  rw [fitsIn_iff, Decidable.not_and_iff_or_not]
  constructor
  · exact .inr
  · rintro (hbehind | hnot)
    · refine .inr fun hstop => ?_
      have hle := hstop.le_size
      omega
    · exact hnot

/-- What splicing comes to, in terms of the source and of the edits in stable order.  An overlap is
reported when any edit ends behind the start of a later one.  Without an overlap, an edit is reported
as misplaced when one of them ends behind the source, or starts or ends inside a character of it.
Without either, the result is the source with the new texts in the place of the spans, put together
in one pass from left to right. -/
theorem splice_outcome (source : Text) (edits : List Edit)
    (hspan : ∀ e ∈ edits, e.start ≤ e.stop) :
    Edit.InStableOrder edits (Edit.sorted edits) ∧
    ((∃ a b, splice source edits = .error (.overlap a b)) ↔
      ¬ (Edit.sorted edits).Pairwise fun a b => a.stop ≤ b.start) ∧
    (((Edit.sorted edits).Pairwise fun a b => a.stop ≤ b.start) →
      ((∃ e, splice source edits = .error (.misplaced e)) ↔
        ∃ e ∈ edits, size source < e.stop ∨ ¬ IsBoundary source e.start ∨
          ¬ IsBoundary source e.stop) ∧
      ((¬ ∃ e ∈ edits, size source < e.stop ∨ ¬ IsBoundary source e.start ∨
          ¬ IsBoundary source e.stop) →
        splice source edits = .ok (Splice.onePass source 0 (Edit.sorted edits)))) := by
  simp only [← Edit.not_fitsIn_iff]
  refine ⟨Edit.inStableOrder_sorted edits, ⟨?_, splice_eq_overlap hspan⟩, fun hdisjoint => ?_⟩
  · rintro ⟨a, b, hoverlap⟩ hdisjoint
    rcases splice_cases_of_disjoint hspan hdisjoint with ⟨-, hok⟩ | ⟨-, e, hmisplaced⟩
    · rw [hok] at hoverlap
      simp at hoverlap
    · rw [hmisplaced] at hoverlap
      simp at hoverlap
  · rcases splice_cases_of_disjoint hspan hdisjoint with ⟨hfits, hok⟩ | ⟨hmisfit, hmisplaced⟩
    · have hnone : ¬ ∃ e ∈ edits, ¬ e.FitsIn source := by
        rintro ⟨e, he, hnot⟩
        exact hnot (hfits e he)
      have hmade : ¬ ∃ e, splice source edits = .error (.misplaced e) := by simp [hok]
      exact ⟨iff_of_false hmade hnone, fun _ => hok⟩
    · exact ⟨iff_of_true hmisplaced hmisfit, fun hnone => absurd hmisfit hnone⟩

/-- Two insertions at one place behind a character of two bytes, and a deletion that ends there. -/
theorem splice_outcome_insertions :
    let edits : List Edit := [⟨2, 2, "y".toList⟩, ⟨2, 2, "z".toList⟩, ⟨0, 2, []⟩]
    (∀ e ∈ edits, e.start ≤ e.stop) ∧
      ((Edit.sorted edits).Pairwise fun a b => a.stop ≤ b.start) ∧
      splice "é|".toList edits = .ok (Splice.onePass "é|".toList 0 (Edit.sorted edits)) ∧
      Splice.onePass "é|".toList 0 (Edit.sorted edits) = "yz|".toList := by
  refine ⟨by decide, by decide, ?_, by decide⟩
  have houtcome := splice_outcome "é|".toList
    [⟨2, 2, "y".toList⟩, ⟨2, 2, "z".toList⟩, ⟨0, 2, []⟩] (by decide)
  exact (houtcome.2.2 (by decide)).2 (by decide)

end Outcome
end BackingField
