import BackingField.Proofs.Text.Runs

/-!
# The line starts inside a text

`AtLines P s t` says that `P` holds of what follows at every line start inside `s`, when `t` comes
behind `s`.  It is decided part by part: a part without a line feed has no line start behind it, and
after a line feed among blanks there are only blanks up to the next part.
-/

namespace BackingField
namespace Text

/-- The text ends in a line feed. -/
def EndsLine (t : Text) : Prop :=
  ∃ line, t = line ++ ['\n']

/-- Whatever follows a line feed of `s` has the property, with `t` behind it. -/
def AtLines (P : Text → Prop) (s t : Text) : Prop :=
  ∀ x y, s = x ++ y → EndsLine x → P (y ++ t)

section LineStarts

variable {P : Text → Prop} {s s' t x y : Text}

theorem EndsLine.ne_nil (h : EndsLine t) : t ≠ [] := by
  obtain ⟨line, rfl⟩ := h
  simp

theorem EndsLine.feed_mem (h : EndsLine t) : '\n' ∈ t := by
  obtain ⟨line, rfl⟩ := h
  simp

theorem endsLine_append (hs' : s' ≠ []) : EndsLine (s ++ s') ↔ EndsLine s' := by
  constructor
  · rintro ⟨line, hline⟩
    obtain ⟨front, c, rfl⟩ : ∃ front c, s' = front ++ [c] :=
      ⟨s'.dropLast, s'.getLast hs', (List.dropLast_concat_getLast hs').symm⟩
    rw [← List.append_assoc] at hline
    obtain ⟨-, hc⟩ := List.append_inj' hline rfl
    exact ⟨front, by rw [hc]⟩
  · rintro ⟨line, rfl⟩
    exact ⟨s ++ line, (List.append_assoc _ _ _).symm⟩

/-- A line start lies in the first of two parts or in the second. -/
theorem atLines_append : AtLines P (s ++ s') t ↔ AtLines P s (s' ++ t) ∧ AtLines P s' t := by
  constructor
  · intro h
    constructor
    · intro x y hs hx
      rw [← List.append_assoc]
      exact h x (y ++ s') (by rw [hs, List.append_assoc]) hx
    · intro x y hs' hx
      exact h (s ++ x) y (by rw [hs', List.append_assoc]) ((endsLine_append hx.ne_nil).2 hx)
  · rintro ⟨hfirst, hsecond⟩ x y heq hx
    rcases List.append_eq_append_iff.1 heq with ⟨m, hxm, hm⟩ | ⟨m, hsm, hym⟩
    · -- The line feed lies in the second part, unless nothing of it is taken.
      cases m with
      | nil =>
        have hy : s' = y := by simpa using hm
        rw [← hy]
        have hs : s = x ++ [] := by simpa using hxm.symm
        simpa using hfirst x [] hs hx
      | cons c m =>
        rw [hxm] at hx
        exact hsecond (c :: m) y hm ((endsLine_append (by simp)).1 hx)
    · rw [hym, List.append_assoc]
      exact hfirst x m hsm hx

/-- Without a line feed there is no line start. -/
theorem atLines_of_not_mem (hs : '\n' ∉ s) : AtLines P s t := by
  intro x y heq hx
  have hmem : '\n' ∈ s := by
    rw [heq]
    exact List.mem_append_left y hx.feed_mem
  exact absurd hmem hs

/-- Among blanks only blanks follow a line feed, up to the next part. -/
theorem atLines_of_only_isBlank (hs : Only isBlank s)
    (ht : ∀ gap, Only isBlank gap → P (gap ++ t)) : AtLines P s t := by
  intro x y heq _
  rw [heq] at hs
  exact ht y (only_append.1 hs).2

end LineStarts
end Text
end BackingField
