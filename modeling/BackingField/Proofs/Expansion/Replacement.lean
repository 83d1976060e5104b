import BackingField.Expansion
import BackingField.Proofs.Occurrence.Scan
import BackingField.Proofs.Sorting

/-!
# What an expanded text is made of

`Replaces` says which text comes out when every occurrence is replaced and every other character is
kept, in one pass from left to right and without offsets.  The edits that `expand` makes from the
last to the first have the same result, and none of them is refused (`expand_eq_ok`).
-/

namespace BackingField

/-! ### Edits that are in order already -/

namespace Splice

theorem firstOverlap?_eq_none {edits : List Edit}
    (h : edits.Pairwise fun a b => a.stop ≤ b.start) : firstOverlap? edits = none := by
  induction edits with
  | nil => rfl
  | cons a edits ih =>
    obtain ⟨hfirst, hrest⟩ := List.pairwise_cons.1 h
    cases edits with
    | nil => rfl
    | cons b edits =>
      have hle : a.stop ≤ b.start := hfirst b (by simp)
      have hnot : ¬ a.stop > b.start := by omega
      rw [firstOverlap?, if_neg hnot, ih hrest]

end Splice

/-- Edits of disjoint spans that come in order are made as they stand. -/
theorem splice_eq_applyBackwards {source : Text} {edits : List Edit}
    (hspan : ∀ e ∈ edits, e.start < e.stop)
    (horder : edits.Pairwise fun a b => a.stop ≤ b.start) :
    splice source edits = Splice.applyBackwards source edits := by
  have hle : edits.Pairwise fun a b => Edit.le a b = true := by
    refine horder.imp_of_mem ?_
    intro a b ha _ hab
    have hstart : Ord.compare a.start b.start = .lt := by
      have hlt := hspan a ha
      exact Nat.compare_eq_lt.2 (by omega)
    simp [Edit.le, Edit.compare, hstart]
  have hsorted : Edit.sorted edits = edits := sortBy_eq_self hle
  simp only [splice, hsorted, Splice.firstOverlap?_eq_none horder]

theorem Edit.applyTo?_append (before middle after new : Text) :
    (⟨Text.size before, Text.size (before ++ middle), new⟩ : Edit).applyTo?
      (before ++ (middle ++ after)) = some (before ++ (new ++ after)) := by
  have hstart := Text.cut?_append before (middle ++ after)
  have hstop := Text.cut?_append (before ++ middle) after
  rw [List.append_assoc] at hstop
  simp only [applyTo?, hstart, hstop, bind, Option.bind_some, pure, List.append_assoc]

/-! ### The replacement in one pass -/

/-- A text with every occurrence replaced by its expanded form.  The search goes on behind an
occurrence, and an occurrence is looked for at line starts only. -/
inductive Replaces : (lineStart : Bool) → (source result : Text) → Prop
  | nil (lineStart : Bool) : Replaces lineStart [] []
  | keep {lineStart : Bool} {c : Char} {source result : Text}
      (hnone : lineStart = true → Declaration.read? (c :: source) = none)
      (hrest : Replaces (c == '\n') source result) : Replaces lineStart (c :: source) (c :: result)
  | expand {d : Declaration} {s source result : Text} (hspelled : d.IsSpelledBy s)
      (hrest : Replaces false source result) :
      Replaces true (s ++ source) (d.expanded (LineEnding.ofText s) ++ result)

/-- The edits of the occurrences behind a beginning of a text replace them and keep the beginning. -/
theorem exists_replaces_applyBackwards (offset : Nat) (lineStart : Bool) (t : Text) :
    ∀ before, offset = Text.size before → ∃ result, Replaces lineStart t result ∧
      Splice.applyBackwards (before ++ t) ((Occurrence.findFrom offset lineStart t).map
        Occurrence.edit) = .ok (before ++ result) := by
  fun_induction Occurrence.findFrom offset lineStart t with
  | case1 offset lineStart t d rest hread o ih =>
    intro before hoffset
    obtain ⟨hstart, s, hspelled, rfl⟩ := Occurrence.exists_isSpelledBy_of_read? hread
    have ho : o = ⟨offset, offset + Text.size s, s, d⟩ := Occurrence.atFront_append offset s rest d
    have hstop : o.stop = Text.size (before ++ s) := by
      rw [ho, Text.size_append, ← hoffset]
    have hedit : o.edit = ⟨Text.size before, Text.size (before ++ s),
        d.expanded (LineEnding.ofText s)⟩ := by
      rw [ho, Text.size_append, ← hoffset]
      rfl
    obtain ⟨result, hreplaces, happly⟩ := ih (before ++ s) hstop
    rw [hstart]
    refine ⟨_, .expand hspelled hreplaces, ?_⟩
    -- The later edits have been made, and the span of this one is where it was.
    simp only [List.append_assoc] at happly
    simp only [List.map_cons, Splice.applyBackwards, happly, hedit, bind, Except.bind,
      Edit.applyTo?_append]
  | case2 offset lineStart hread =>
    intro before hoffset
    exact ⟨[], .nil lineStart, rfl⟩
  | case3 offset lineStart c t hread ih =>
    intro before hoffset
    obtain ⟨result, hreplaces, happly⟩ := ih (before ++ [c]) (by simp [hoffset])
    refine ⟨c :: result, .keep (fun hstart => by simpa [hstart] using hread) hreplaces, ?_⟩
    simpa using happly

/-- Every text can be expanded, and the result is the text with its occurrences replaced. -/
theorem expand_eq_ok (source : Text) : ∃ result, Replaces true source result ∧
    expand source = .ok ⟨result, (Occurrence.find source).length⟩ := by
  obtain ⟨result, hreplaces, happly⟩ := exists_replaces_applyBackwards 0 true source [] rfl
  refine ⟨result, hreplaces, ?_⟩
  have hscan := Occurrence.leftmostScan_find source
  have hspan : ∀ e ∈ (Occurrence.find source).map Occurrence.edit, e.start < e.stop := by
    intro e he
    obtain ⟨o, ho, rfl⟩ := List.mem_map.1 he
    exact (hscan.occurs o ho).start_lt_stop
  have horder : ((Occurrence.find source).map Occurrence.edit).Pairwise
      fun a b => a.stop ≤ b.start :=
    List.pairwise_map.2 hscan.ordered.2
  have hsplice : splice source ((Occurrence.find source).map Occurrence.edit) = .ok result := by
    rw [splice_eq_applyBackwards hspan horder]
    exact happly
  simp only [BackingField.expand, hsplice, bind, Except.bind, pure, Except.pure]

end BackingField
