import BackingField.Proofs.Splice.OnePass

/-!
# What lies between the occurrences is kept

The spans of the occurrences are disjoint, in order and between characters, so the edits that expand
them are always made (`expand_eq_onePass`).  The source is the texts of the occurrences with gaps
around them, and the expanded text is their expanded forms with the same gaps around them
(`expand_keeps_gaps`).
-/

namespace BackingField

open Text

/-! ### The gaps between spans -/

namespace Splice

variable {source : Text}

/-- One pass whose new texts are the old ones gives the source. -/
theorem onePass_eq_slice {edits : List Edit} {offset : Nat} (h : Placed source edits)
    (hoffset : IsBoundary source offset) (hle : ∀ e ∈ edits, offset ≤ e.start)
    (hold : ∀ e ∈ edits, e.newText = slice source e.start e.stop) :
    onePass source offset edits = slice source offset (size source) := by
  induction edits generalizing offset with
  | nil => rfl
  | cons e edits ih =>
    obtain ⟨hstart, hstop⟩ := h.fits e (by simp)
    have hlater := ih h.tail hstop h.stop_le fun f hf => hold f (List.mem_cons_of_mem e hf)
    have hoffsetE := hle e (by simp)
    have hspan := h.span e (by simp)
    rw [onePass, hold e (by simp), hlater, slice_append_slice hoffset hstart hstop hoffsetE hspan,
      slice_append_slice hoffset hstop (isBoundary_size source) (by omega) hstop.le_size]

/-- The gaps depend on the spans alone, whatever is put into their places. -/
theorem exists_gaps (source : Text) (offset : Nat) (found : List Occurrence) :
    ∃ (first : Text) (gaps : List Text), gaps.length = found.length ∧
      ∀ new : Occurrence → Text,
        onePass source offset (found.map fun o => ⟨o.start, o.stop, new o⟩) =
          first ++ (List.zipWith (fun o gap => new o ++ gap) found gaps).flatten := by
  induction found generalizing offset with
  | nil => exact ⟨slice source offset (size source), [], rfl, fun new => by simp [onePass]⟩
  | cons o found ih =>
    obtain ⟨first, gaps, hlength, hlater⟩ := ih o.stop
    refine ⟨slice source offset o.start, first :: gaps, by simp [hlength], fun new => ?_⟩
    simp [onePass, hlater new]

end Splice

/-! ### Occurrences as spans -/

namespace Occurrence

variable {o : Occurrence} {source : Text}

theorem StandsIn.fitsIn (h : o.StandsIn source) (new : Text) :
    Edit.FitsIn ⟨o.start, o.stop, new⟩ source := by
  obtain ⟨before, after, rfl, hstart, hstop, -, -⟩ := h
  exact ⟨⟨before, _, rfl, hstart.symm⟩,
    ⟨before ++ o.text, after, (List.append_assoc _ _ _).symm, hstop.symm⟩⟩

theorem StandsIn.text_eq_slice (h : o.StandsIn source) :
    o.text = slice source o.start o.stop := by
  obtain ⟨before, after, ht, hstart, hstop, -, -⟩ := h
  rw [hstart, hstop, ht, slice_append]

end Occurrence

/-- Whatever is to be put in the place of the occurrences can be put there. -/
theorem placed_find (source : Text) (new : Occurrence → Text) :
    Splice.Placed source ((Occurrence.find source).map fun o => ⟨o.start, o.stop, new o⟩) := by
  have hscan := Occurrence.leftmostScan_find source
  refine ⟨fun e he => ?_, List.pairwise_map.2 hscan.ordered.2, fun e he => ?_⟩
  · obtain ⟨o, ho, rfl⟩ := List.mem_map.1 he
    exact Nat.le_of_lt (hscan.occurs o ho).start_lt_stop
  · obtain ⟨o, ho, rfl⟩ := List.mem_map.1 he
    exact (hscan.occurs o ho).fitsIn (new o)

/-- The edits that expand the occurrences are always made. -/
theorem expand_eq_onePass (source : Text) :
    expand source = .ok ⟨Splice.onePass source 0 ((Occurrence.find source).map Occurrence.edit),
      (Occurrence.find source).length⟩ := by
  have hscan := Occurrence.leftmostScan_find source
  have hplaced : Splice.Placed source ((Occurrence.find source).map Occurrence.edit) :=
    placed_find source Occurrence.expanded
  have hspan : ∀ e ∈ (Occurrence.find source).map Occurrence.edit, e.start < e.stop := by
    intro e he
    obtain ⟨o, ho, rfl⟩ := List.mem_map.1 he
    exact (hscan.occurs o ho).start_lt_stop
  simp only [expand, splice_eq_applyBackwards hspan hplaced.disjoint,
    Splice.applyBackwards_eq_onePass hplaced, bind, Except.bind, pure, Except.pure]

/-- The source is what one pass makes of it when every occurrence is put back in its place. -/
theorem onePass_text (source : Text) : Splice.onePass source 0
    ((Occurrence.find source).map fun o => ⟨o.start, o.stop, o.text⟩) = source := by
  have hscan := Occurrence.leftmostScan_find source
  have hold : ∀ e ∈ (Occurrence.find source).map fun o => (⟨o.start, o.stop, o.text⟩ : Edit),
      e.newText = slice source e.start e.stop := by
    intro e he
    obtain ⟨o, ho, rfl⟩ := List.mem_map.1 he
    exact (hscan.occurs o ho).text_eq_slice
  rw [Splice.onePass_eq_slice (placed_find source Occurrence.text) (isBoundary_zero source)
    (fun e _ => Nat.zero_le e.start) hold, slice_zero_size]

/-- Every text can be expanded, and nothing but its occurrences is touched.  The spans of the
occurrences are in order and disjoint, none is empty, and all lie in the text and between its
characters.  The texts between them stay the same, in front of the first and behind the last too. -/
theorem expand_keeps_gaps (source : Text) :
    ((Occurrence.find source).Pairwise fun o p => o.start < p.start ∧ o.stop ≤ p.start) ∧
    (∀ o ∈ Occurrence.find source, o.start < o.stop ∧ o.stop ≤ size source ∧
      IsBoundary source o.start ∧ IsBoundary source o.stop ∧
      o.text = slice source o.start o.stop) ∧
    ∃ (first : Text) (gaps : List Text), gaps.length = (Occurrence.find source).length ∧
      source = first ++
        (List.zipWith (fun o gap => o.text ++ gap) (Occurrence.find source) gaps).flatten ∧
      expand source = .ok ⟨first ++
        (List.zipWith (fun o gap => o.expanded ++ gap) (Occurrence.find source) gaps).flatten,
        (Occurrence.find source).length⟩ := by
  have hscan := Occurrence.leftmostScan_find source
  refine ⟨hscan.ordered.2.imp_of_mem ?_, fun o ho => ?_, ?_⟩
  · intro o p ho _ hle
    have hlt := (hscan.occurs o ho).start_lt_stop
    exact ⟨by omega, hle⟩
  · have hstands := hscan.occurs o ho
    have hfits := hstands.fitsIn o.text
    exact ⟨hstands.start_lt_stop, hfits.stop.le_size, hfits.start, hfits.stop,
      hstands.text_eq_slice⟩
  · obtain ⟨first, gaps, hlength, hgaps⟩ :=
      Splice.exists_gaps source 0 (Occurrence.find source)
    refine ⟨first, gaps, hlength, ?_, ?_⟩
    · rw [← hgaps Occurrence.text, onePass_text]
    · rw [← hgaps Occurrence.expanded]
      exact expand_eq_onePass source

end BackingField
