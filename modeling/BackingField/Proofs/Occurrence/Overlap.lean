import BackingField.Proofs.Declaration.Openings
import BackingField.Proofs.Expansion.Replacement
import Mathlib.Data.Set.Card

/-!
# Overlapping occurrences

Occurrences may overlap, because the type arguments of one can hold the beginning of another.  Both
then end at the same brace, so the search misses no closing brace although it returns only the first
of the occurrences that share one.
-/

namespace BackingField
namespace Occurrence

variable {o p : Occurrence} {t : Text}

/-- An occurrence that starts inside another one, or where it starts, ends where that one ends. -/
theorem StandsIn.stop_eq_of_start_mem (ho : o.StandsIn t) (hp : p.StandsIn t)
    (hle : o.start ≤ p.start) (hlt : p.start < o.stop) : o.stop = p.stop := by
  obtain ⟨before, after, ht, hostart, hostop, -, horead⟩ := ho.read?
  obtain ⟨before', after', ht', hpstart, hpstop, hline, hpread⟩ := hp.read?
  obtain ⟨m, hbefore, hm⟩ := Text.exists_append_of_size_le (ht ▸ ht') (by omega)
  have hwhole : Text.size (before ++ (o.text ++ after)) =
      Text.size (before' ++ (p.text ++ after')) := by rw [← ht, ht']
  simp only [Text.size_append] at hostop hpstop hwhole
  have hinside : Text.size after < Text.size (p.text ++ after') := by
    rw [Text.size_append]
    omega
  cases m with
  | nil =>
    have hstart : o.start = p.start := by
      rw [hostart, hpstart, hbefore, List.append_nil]
    rw [ho.eq_of_start_eq hp hstart]
  | cons c m =>
    -- The place in between is a line start, so the inner declaration ends with the outer one.
    have hfeed : Text.EndsLine (c :: m) := by
      rcases hline with hnil | hfeed
      · simp [hbefore] at hnil
      · rw [hbefore] at hfeed
        exact (Text.endsLine_append (by simp)).1 hfeed
    rw [hm] at horead
    have hafter := Declaration.rest_eq_of_read?_inside horead hfeed hinside hpread
    rw [hafter] at hwhole
    omega

/-- Occurrences that overlap end at the same place. -/
theorem StandsIn.stop_eq_of_overlap (ho : o.StandsIn t) (hp : p.StandsIn t)
    (hlt : o.start < p.stop) (hlt' : p.start < o.stop) : o.stop = p.stop := by
  rcases Nat.le_total o.start p.start with hle | hle
  · exact ho.stop_eq_of_start_mem hp hle hlt'
  · exact (hp.stop_eq_of_start_mem ho hle hlt).symm

-- The type arguments of the longer text hold the beginning of the shorter one.
example :
    let inner := "public b<c> n\n\x7b\nget;\nset=>m(ref field,value);\n\x7d".toList
    (Declaration.read? inner).map Prod.snd = some [] ∧
      (Declaration.read? ("public a<\n".toList ++ inner)).map Prod.snd = some [] := by
  decide +kernel

/-- A scan finds the end of every occurrence behind the place where it begins. -/
theorem LeftmostScan.exists_stop_eq {offset : Nat} {found : List Occurrence}
    (h : LeftmostScan (fun o => o.StandsIn t) offset found) (hp : p.StandsIn t)
    (hfrom : offset ≤ p.start) : ∃ o ∈ found, o.stop = p.stop := by
  induction h with
  | done hnone =>
    have hbefore := hnone p hp
    omega
  | @next offset o later hoccurs _ hfirst _ ih =>
    -- Either the occurrence overlaps with the first one found, or it lies behind it.
    rcases Nat.lt_or_ge p.start o.stop with hlt | hge
    · have hle : o.start ≤ p.start := hfirst p hp hfrom
      exact ⟨o, by simp, hoccurs.stop_eq_of_start_mem hp hle hlt⟩
    · obtain ⟨q, hq, hstop⟩ := ih hge
      exact ⟨q, by simp [hq], hstop⟩

/-- No two occurrences that are found end at the same place. -/
theorem nodup_stops_find (t : Text) : ((find t).map stop).Nodup := by
  have hscan := leftmostScan_find t
  refine List.pairwise_map.2 (hscan.ordered.2.imp_of_mem ?_)
  intro o p _ hp hle
  have hlt := (hscan.occurs p hp).start_lt_stop
  omega

theorem stops_eq_stops_find (t : Text) :
    stop '' {o | o.StandsIn t} = stop '' {o | o ∈ find t} := by
  ext n
  constructor
  · rintro ⟨p, hp, rfl⟩
    exact (leftmostScan_find t).exists_stop_eq hp (Nat.zero_le _)
  · rintro ⟨o, ho, rfl⟩
    exact ⟨o, (leftmostScan_find t).occurs o ho, rfl⟩

theorem length_find_eq_ncard (t : Text) : (find t).length = (stop '' {o | o.StandsIn t}).ncard := by
  have hcoe : stop '' {o | o ∈ find t} = ((find t).map stop).toFinset := by
    ext n
    simp
  rw [stops_eq_stops_find, hcoe, Set.ncard_coe_finset, List.toFinset_card_of_nodup (nodup_stops_find t),
    List.length_map]

/-- Occurrences that overlap share their closing brace, every closing brace of an occurrence belongs
to one that is found, and the number of expanded properties is the number of these braces. -/
theorem overlapping_stop_eq_and_all_stops_found (t : Text) :
    (∀ o p : Occurrence, o.StandsIn t → p.StandsIn t → o.start < p.stop → p.start < o.stop →
      o.stop = p.stop) ∧
    stop '' {o | o.StandsIn t} = stop '' {o | o ∈ find t} ∧
    ∃ e, expand t = .ok e ∧ e.properties = (stop '' {o | o.StandsIn t}).ncard := by
  refine ⟨fun o p ho hp => ho.stop_eq_of_overlap hp, stops_eq_stops_find t, ?_⟩
  obtain ⟨result, -, hexpand⟩ := expand_eq_ok t
  exact ⟨_, hexpand, length_find_eq_ncard t⟩

end Occurrence
end BackingField
