import BackingField.Proofs.Occurrence.Overlap

/-!
# Text behind the occurrences

What is appended to a text may complete a declaration that begins in front of an occurrence found
before.  But then the two overlap and end at one place, so the longer one was complete already.  The
search of the extended text therefore begins with all that was found in the text itself
(`find_isPrefix_find_append`).
-/

namespace BackingField
namespace Occurrence

variable {o p : Occurrence} {s t : Text}

/-- An occurrence ends within its text. -/
theorem StandsIn.stop_le_size (h : o.StandsIn s) : o.stop ≤ Text.size s := by
  obtain ⟨before, after, hs, -, hstop, -⟩ := h
  rw [hs, ← List.append_assoc, Text.size_append, hstop]
  exact Nat.le_add_right _ _

/-- An occurrence that ends in front of the appended text does not need it. -/
theorem StandsIn.of_append (h : o.StandsIn (s ++ t)) (hstop : o.stop ≤ Text.size s) :
    o.StandsIn s := by
  obtain ⟨before, after, hst, hostart, hostop, hline, hspelled⟩ := h
  rw [hostop] at hstop
  rw [← List.append_assoc] at hst
  obtain ⟨m, hs, -⟩ := Text.exists_append_of_size_le hst.symm hstop
  exact ⟨before, m, by rw [hs, List.append_assoc], hostart, hostop, hline, hspelled⟩

/-- Appended text completes no declaration that begins in front of an occurrence, or where it begins. -/
theorem StandsIn.of_append_of_start_le (hp : p.StandsIn (s ++ t)) (ho : o.StandsIn s)
    (hle : p.start ≤ o.start) : p.StandsIn s := by
  have hostop := ho.stop_le_size
  have hlt := ho.start_lt_stop
  refine hp.of_append ?_
  rcases Nat.lt_or_ge o.start p.stop with hover | hbefore
  · -- The two overlap, so they end at one place.
    rw [hp.stop_eq_of_start_mem (ho.append t) hle hover]
    exact hostop
  · omega

/-- Two scans from one offset, of a text and of an extension of it, go together until the first is
over. -/
theorem LeftmostScan.isPrefix_of_append {offset : Nat} {found found' : List Occurrence}
    (h : LeftmostScan (fun o => o.StandsIn s) offset found)
    (h' : LeftmostScan (fun o => o.StandsIn (s ++ t)) offset found') : found <+: found' := by
  induction h generalizing found' with
  | done hnone => exact List.nil_prefix
  | @next offset o later hoccurs hfrom hfirst hlater ih =>
    have happend := hoccurs.append t
    cases h' with
    | done hnone' =>
      have hbefore := hnone' o happend
      omega
    | @next _ o' later' hoccurs' hfrom' hfirst' hlater' =>
      have hle : o'.start ≤ o.start := hfirst' o happend hfrom
      have hge : o.start ≤ o'.start :=
        hfirst o' (hoccurs'.of_append_of_start_le hoccurs hle) hfrom'
      obtain rfl : o = o' := happend.eq_of_start_eq hoccurs' (by omega)
      exact (List.prefix_cons_inj o).2 (ih hlater')

/-- What is found in a text is found first in every text that begins with it, at the same places and
with the same parts. -/
theorem find_isPrefix_find_append (s t : Text) : find s <+: find (s ++ t) :=
  (leftmostScan_find s).isPrefix_of_append (leftmostScan_find (s ++ t))

end Occurrence
end BackingField
