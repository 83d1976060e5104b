import BackingField.Proofs.Declaration.Expanded
import BackingField.Proofs.Expansion.Replacement

/-!
# Expanding twice is expanding once

In an expanded text no declaration is left.  The search passes over each expanded form.  At a line
start that was kept, a declaration would end in front of the next expanded form, so all of it was
kept and it would have been read in the source at the same place (`Replaces.read?_eq_none`).
-/

namespace BackingField

open Text

/-! ### Where the search finds nothing -/

namespace Occurrence

theorem findFrom_cons {lineStart : Bool} {c : Char} {t : Text} (offset : Nat)
    (h : lineStart = true → Declaration.read? (c :: t) = none) :
    findFrom offset lineStart (c :: t) = findFrom (offset + c.utf8Size) (c == '\n') t := by
  cases lineStart with
  | false => exact findFrom_false_cons offset c t
  | true => exact findFrom_true_cons_of_none (h rfl)

/-- The search passes over a text without line starts where something is read. -/
theorem findFrom_append {lineStart : Bool} {s t : Text} {c : Char} (offset : Nat)
    (hstart : lineStart = true → Declaration.read? (s ++ c :: t) = none)
    (hlines : AtLines (fun y => Declaration.read? y = none) s (c :: t)) :
    findFrom offset lineStart (s ++ c :: t) = findFrom (offset + size (s ++ [c])) (c == '\n') t := by
  induction s generalizing offset lineStart with
  | nil => simpa using findFrom_cons offset hstart
  | cons d s ih =>
    have hnext : (d == '\n') = true → Declaration.read? (s ++ c :: t) = none := by
      intro hd
      exact hlines [d] s rfl ⟨[], by simp [beq_iff_eq.1 hd]⟩
    have hlater : AtLines (fun y => Declaration.read? y = none) s (c :: t) := by
      intro x y hxy hx
      refine hlines (d :: x) y (by rw [hxy]; rfl) ?_
      exact (endsLine_append hx.ne_nil (s := [d])).2 hx
    have hrest := ih (offset + d.utf8Size) hnext hlater
    have hsize : offset + d.utf8Size + size (s ++ [c]) = offset + size (d :: s ++ [c]) := by
      simp [Nat.add_assoc]
    rw [List.cons_append] at hstart ⊢
    rw [findFrom_cons offset hstart, hrest, hsize]

end Occurrence

/-! ### The text up to the first expanded form -/

/-- An expanded form ends in a brace, behind which no line starts, and nothing is read in it. -/
theorem Declaration.exists_expanded_eq_append {d : Declaration} (hd : d.WellFormed)
    (ending : LineEnding) (t : Text) :
    ∃ front, d.expanded ending = front ++ ['\x7d'] ∧ read? (front ++ '\x7d' :: t) = none ∧
      AtLines (fun y => read? y = none) front ('\x7d' :: t) := by
  obtain ⟨front, hfront⟩ : ∃ front, d.expanded ending = front ++ ['\x7d'] := by
    unfold expanded
    exact ⟨_, rfl⟩
  have hread := read?_expanded hd ending t
  have hlines := atLines_expanded hd ending t
  rw [hfront, List.append_assoc, List.singleton_append] at hread
  rw [hfront, atLines_append, List.singleton_append] at hlines
  exact ⟨front, hfront, hread, hlines.1⟩

/-- Where nothing is read, nothing is read when a later line start is given an expanded form. -/
theorem Declaration.read?_eq_none_of_expanded {d : Declaration} {front rest : Text}
    (hd : d.WellFormed) (ending : LineEnding) (rest' : Text) (hline : EndsLine front)
    (hnone : read? (front ++ rest) = none) :
    read? (front ++ (d.expanded ending ++ rest')) = none := by
  cases hread : read? (front ++ (d.expanded ending ++ rest')) with
  | none => rfl
  | some found =>
    obtain ⟨d', rest''⟩ := found
    have hsize := size_le_of_read?_expanded hd ending rest' hline hread
    -- The declaration ends in front of the expanded form, so it is part of what was kept.
    obtain ⟨s, hspelled, hs⟩ := read?_eq_some_iff.1 hread
    obtain ⟨m, hm⟩ : ∃ m, front = s ++ m := by
      have htotal := congrArg size hs
      rw [size_append, size_append s] at htotal
      obtain ⟨m, hm, -⟩ := exists_append_of_size_le hs.symm (by omega)
      exact ⟨m, hm⟩
    have hsome : read? (front ++ rest) = some (d', m ++ rest) := by
      refine read?_eq_some_iff.2 ⟨s, hspelled, ?_⟩
      rw [hm, List.append_assoc]
    rw [hnone] at hsome
    simp at hsome

namespace Replaces

/-- Up to the first expanded form, which begins at a line start, the result is the source. -/
theorem eq_or_exists_expanded {lineStart : Bool} {source result : Text}
    (h : Replaces lineStart source result) :
    source = result ∨ ∃ (front : Text) (d : Declaration) (ending : LineEnding) (rest rest' : Text),
      d.WellFormed ∧ source = front ++ rest ∧ result = front ++ (d.expanded ending ++ rest') ∧
      (front = [] ∧ lineStart = true ∨ EndsLine front) := by
  induction h with
  | nil lineStart => exact .inl rfl
  | @expand d s source result hspelled _ _ =>
    refine .inr ⟨[], d, LineEnding.ofText s, s ++ source, result, hspelled.wellFormed, ?_, ?_,
      .inl ⟨rfl, rfl⟩⟩
    · rw [List.nil_append]
    · rw [List.nil_append]
  | @keep lineStart c source result _ _ ih =>
    rcases ih with rfl | ⟨front, d, ending, rest, rest', hd, rfl, rfl, hfront⟩
    · exact .inl rfl
    · refine .inr ⟨c :: front, d, ending, rest, rest', hd, rfl, rfl, .inr ?_⟩
      rcases hfront with ⟨rfl, hc⟩ | hline
      · exact ⟨[], by simp [beq_iff_eq.1 hc]⟩
      · exact (endsLine_append hline.ne_nil (s := [c])).2 hline

/-- At a line start that is kept nothing is read in the result, because nothing was in the source. -/
theorem read?_eq_none {c : Char} {source result : Text}
    (hnone : Declaration.read? (c :: source) = none) (h : Replaces (c == '\n') source result) :
    Declaration.read? (c :: result) = none := by
  -- Whether the character itself starts a line does not matter for what follows it.
  have hkeep : Replaces false (c :: source) (c :: result) := .keep (by simp) h
  rcases hkeep.eq_or_exists_expanded with heq |
    ⟨front, d, ending, rest, rest', hd, hsource, hresult, hfront⟩
  · rw [← heq]
    exact hnone
  · have hline : EndsLine front := by
      rcases hfront with ⟨-, hfalse⟩ | hline
      · simp at hfalse
      · exact hline
    rw [hsource] at hnone
    rw [hresult]
    exact Declaration.read?_eq_none_of_expanded hd ending rest' hline hnone

/-- The search finds nothing in the result of a replacement. -/
theorem findFrom_eq_nil {lineStart : Bool} {source result : Text}
    (h : Replaces lineStart source result) (offset : Nat) :
    Occurrence.findFrom offset lineStart result = [] := by
  induction h generalizing offset with
  | nil lineStart => exact Occurrence.findFrom_nil offset lineStart
  | keep hnone hrest ih =>
    rw [Occurrence.findFrom_cons offset fun hstart => read?_eq_none (hnone hstart) hrest]
    exact ih _
  | @expand d s source result hspelled _ ih =>
    obtain ⟨front, hfront, hread, hlines⟩ :=
      Declaration.exists_expanded_eq_append hspelled.wellFormed (LineEnding.ofText s) result
    rw [hfront, List.append_assoc, List.singleton_append,
      Occurrence.findFrom_append offset (fun _ => hread) hlines]
    exact ih _

end Replaces

/-- Nothing is found in an expanded text, also when it is cut short. -/
theorem find_eq_nil_of_isPrefix_expand {source s : Text} {e : Expansion}
    (hexpand : expand source = .ok e) (h : s <+: e.text) : Occurrence.find s = [] := by
  obtain ⟨result, hreplaces, hresult⟩ := expand_eq_ok source
  rw [hexpand] at hresult
  rw [Except.ok.inj hresult] at h
  exact Occurrence.find_eq_nil_of_isPrefix h (hreplaces.findFrom_eq_nil 0)

/-- Expanding an expanded text finds no property and leaves the text as it is. -/
theorem expand_expand (source : Text) :
    ∃ e, expand source = .ok e ∧ expand e.text = .ok ⟨e.text, 0⟩ := by
  obtain ⟨result, hreplaces, hexpand⟩ := expand_eq_ok source
  refine ⟨_, hexpand, ?_⟩
  have hfind : Occurrence.find result = [] := hreplaces.findFrom_eq_nil 0
  simp only [expand, hfind]
  rfl

end BackingField
