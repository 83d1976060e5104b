import BackingField.Declaration.Basic
import BackingField.Proofs.Text.Runs
import Mathlib.Data.List.Chain

/-!
# Lower case keeps word characters

The lower-case form of a word character is made of word characters, so the name of a backing field
is an identifier.  Both tables are checked as a whole: each run of upper-case code points goes into
one range of word characters.
-/

namespace BackingField
namespace Text

theorem inRanges_of_mem {ranges : List (Nat × Nat)} {r : Nat × Nat} {n : Nat}
    (hascending : ranges.Pairwise fun r s => r.1 ≤ s.1) (hr : r ∈ ranges) (hlow : r.1 ≤ n)
    (hhigh : n ≤ r.2) : inRanges ranges n = true := by
  induction ranges with
  | nil => simp at hr
  | cons s ranges ih =>
    obtain ⟨hfirst, hrest⟩ := List.pairwise_cons.1 hascending
    obtain ⟨first, last⟩ := s
    rcases List.mem_cons.1 hr with rfl | hmem
    · have hnot : ¬ n < first := Nat.not_lt.2 hlow
      simp [inRanges, hnot, hhigh]
    · have hle : first ≤ r.1 := hfirst r hmem
      have hnot : ¬ n < first := by omega
      simp [inRanges, hnot, ih hrest hmem]

theorem wordRanges_ascending : wordRanges.Pairwise fun r s => r.1 ≤ s.1 := by
  have htrans : Trans (fun r s : Nat × Nat => r.1 ≤ s.1) (fun r s : Nat × Nat => r.1 ≤ s.1)
      (fun r s : Nat × Nat => r.1 ≤ s.1) := ⟨Nat.le_trans⟩
  have hchain : wordRanges.IsChain fun r s => r.1 ≤ s.1 := by decide +kernel
  exact List.isChain_iff_pairwise.1 hchain

/-- No range of word characters reaches into the surrogates. -/
theorem wordRanges_valid :
    (wordRanges.all fun r => r.2 < 0xD800 || (0xDFFF < r.1 && r.2 < 0x110000)) = true := by
  decide +kernel

/-- The lower-case forms of a run lie in one range of word characters. -/
theorem caseRuns_within_wordRanges :
    (caseRuns.all fun run => wordRanges.any fun r =>
      Nat.ble (run.target + (run.last - run.first)) r.2 && Nat.ble r.1 run.target) = true := by
  decide +kernel

theorem isWord_ofNat {r : Nat × Nat} {n : Nat} (hr : r ∈ wordRanges) (hlow : r.1 ≤ n)
    (hhigh : n ≤ r.2) : isWord (Char.ofNat n) = true := by
  have hvalid : n.isValidChar := by
    have hrange := List.all_eq_true.1 wordRanges_valid r hr
    simp only [Bool.or_eq_true, Bool.and_eq_true, decide_eq_true_eq] at hrange
    rcases hrange with hbelow | ⟨habove, hmax⟩
    · exact .inl (by omega)
    · exact .inr ⟨by omega, by omega⟩
  have htoNat : (Char.ofNat n).toNat = n := by
    rw [Char.ofNat, dif_pos hvalid]
    rfl
  unfold isWord
  rw [htoNat]
  exact inRanges_of_mem wordRanges_ascending hr hlow hhigh

theorem isWord_ofNat_lowerPoint {c : Char} (h : isWord c = true) :
    isWord (Char.ofNat (lowerPoint c.toNat)) = true := by
  unfold lowerPoint
  split
  · next run hrun =>
    have hcovers := List.find?_some hrun
    simp only [CaseRun.covers, Bool.and_eq_true, decide_eq_true_eq] at hcovers
    obtain ⟨⟨hfirst, hlast⟩, -⟩ := hcovers
    -- The run goes into one range as a whole, whatever its stride.
    have hwithin := List.all_eq_true.1 caseRuns_within_wordRanges run (List.mem_of_find?_eq_some hrun)
    obtain ⟨r, hr, hrange⟩ := List.any_eq_true.1 hwithin
    simp only [Bool.and_eq_true, Nat.ble_eq] at hrange
    exact isWord_ofNat hr (by omega) (by omega)
  · rw [Char.ofNat_toNat]
    exact h

theorem only_isWord_lower {c : Char} (h : isWord c = true) : Only isWord (lower c) := by
  unfold lower
  split
  · simp; decide
  · simpa using isWord_ofNat_lowerPoint h

end Text

namespace Declaration

open Text

/-- The name of a backing field is an identifier when the name of the property is one. -/
theorem isIdentifier_fieldName {name : Text} (h : IsIdentifier name) :
    IsIdentifier (fieldName name) := by
  obtain ⟨hne, hword⟩ := h
  cases name with
  | nil => exact absurd rfl hne
  | cons c name =>
    obtain ⟨hc, hrest⟩ := only_cons.1 hword
    refine ⟨by simp [fieldName], ?_⟩
    rw [fieldName]
    exact only_append.2 ⟨only_cons.2 ⟨by decide, only_isWord_lower hc⟩, hrest⟩

end Declaration
end BackingField
