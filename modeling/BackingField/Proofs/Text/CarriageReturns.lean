import BackingField.Proofs.Text.Runs

/-!
# Carriage returns in front of line feeds

`withCarriageReturns` turns the line ends of one system into those of the other.  It adds characters
only next to line feeds, so it goes past every class that does not tell the two apart, and past every
word that holds neither.
-/

namespace BackingField
namespace Text

/-- The text with a carriage return in front of every line feed. -/
def withCarriageReturns : Text → Text
  | [] => []
  | c :: t =>
      if c = '\n' then '\r' :: '\n' :: withCarriageReturns t else c :: withCarriageReturns t

@[simp] theorem withCarriageReturns_nil : withCarriageReturns [] = [] := rfl

@[simp] theorem withCarriageReturns_feed (t : Text) :
    withCarriageReturns ('\n' :: t) = '\r' :: '\n' :: withCarriageReturns t := rfl

theorem withCarriageReturns_cons {c : Char} (h : c ≠ '\n') (t : Text) :
    withCarriageReturns (c :: t) = c :: withCarriageReturns t :=
  if_neg h

@[simp] theorem withCarriageReturns_append (s t : Text) :
    withCarriageReturns (s ++ t) = withCarriageReturns s ++ withCarriageReturns t := by
  induction s with
  | nil => rfl
  | cons c s ih =>
    by_cases hc : c = '\n'
    · simp [hc, ih]
    · simp [withCarriageReturns_cons hc, ih]

/-- A text of one line stays as it is. -/
theorem withCarriageReturns_eq_self {t : Text} (h : '\n' ∉ t) : withCarriageReturns t = t := by
  induction t with
  | nil => rfl
  | cons c t ih =>
    simp only [List.mem_cons, not_or] at h
    rw [withCarriageReturns_cons (Ne.symm h.1), ih h.2]

theorem withCarriageReturns_eq_nil_iff {t : Text} : withCarriageReturns t = [] ↔ t = [] := by
  cases t with
  | nil => simp
  | cons c t =>
    by_cases hc : c = '\n'
    · simp [hc]
    · simp [withCarriageReturns_cons hc]

section Classes

variable {p : Char → Bool} {t : Text}

theorem Only.withCarriageReturns (h : Only p t) (hp : p '\r' = p '\n') :
    Only p (withCarriageReturns t) := by
  induction t with
  | nil => exact h
  | cons c t ih =>
    obtain ⟨hc, ht⟩ := only_cons.1 h
    by_cases hfeed : c = '\n'
    · subst hfeed
      simp [hp, hc, ih ht]
    · rw [withCarriageReturns_cons hfeed, only_cons]
      exact ⟨hc, ih ht⟩

theorem Stops.withCarriageReturns (h : Stops p t) (hp : p '\r' = p '\n') :
    Stops p (withCarriageReturns t) := by
  cases t with
  | nil => exact h
  | cons c t =>
    rw [stops_cons] at h
    by_cases hfeed : c = '\n'
    · subst hfeed
      simp [hp, h]
    · rw [withCarriageReturns_cons hfeed, stops_cons]
      exact h

/-- A run of a class that treats both line end characters alike is taken as before. -/
theorem takeWhile_withCarriageReturns (hp : p '\r' = p '\n') (t : Text) :
    (withCarriageReturns t).takeWhile p = withCarriageReturns (t.takeWhile p) := by
  have hparts := withCarriageReturns_append (t.takeWhile p) (t.dropWhile p)
  rw [List.takeWhile_append_dropWhile] at hparts
  rw [hparts, takeWhile_run_append ((only_takeWhile p t).withCarriageReturns hp)
    ((stops_dropWhile p t).withCarriageReturns hp)]

theorem dropWhile_withCarriageReturns (hp : p '\r' = p '\n') (t : Text) :
    (withCarriageReturns t).dropWhile p = withCarriageReturns (t.dropWhile p) := by
  have hparts := withCarriageReturns_append (t.takeWhile p) (t.dropWhile p)
  rw [List.takeWhile_append_dropWhile] at hparts
  rw [hparts, dropWhile_run_append ((only_takeWhile p t).withCarriageReturns hp)
    ((stops_dropWhile p t).withCarriageReturns hp)]

end Classes

/-- Behind a word of one line, without carriage returns, the rest is what it was. -/
theorem behind?_withCarriageReturns {word : Text} (hreturn : '\r' ∉ word) (hfeed : '\n' ∉ word)
    (t : Text) : behind? word (withCarriageReturns t) = (behind? word t).map withCarriageReturns := by
  induction word generalizing t with
  | nil => rfl
  | cons d word ih =>
    simp only [List.mem_cons, not_or] at hreturn hfeed
    cases t with
    | nil => rfl
    | cons c t =>
      by_cases hc : c = '\n'
      · simp [hc, behind?, Ne.symm hreturn.1, Ne.symm hfeed.1]
      · rw [withCarriageReturns_cons hc]
        by_cases hdc : d = c
        · simp [behind?, hdc, ih hreturn.2 hfeed.2]
        · simp [behind?, hdc]

end Text
end BackingField
