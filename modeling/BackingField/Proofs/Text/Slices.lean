import BackingField.Text.Basic

/-!
# Parts of a text between byte offsets

`IsBoundary t n` says that the byte offset `n` falls between two characters of the text, and
`slice t start stop` takes the characters that begin at an offset from `start` on and in front of
`stop`.  Between boundaries a slice is exactly the part of the text that lies there
(`slice_append`), so slices with a boundary in common fit together again (`slice_append_slice`).
-/

namespace BackingField
namespace Text

/-- The byte offset lies at the beginning of a character or at the end of the text. -/
def IsBoundary (t : Text) (n : Nat) : Prop :=
  ∃ before after, t = before ++ after ∧ size before = n

/-- Those characters of a text at the given offset that begin from `start` on and in front of
`stop`. -/
def sliceFrom (offset : Nat) (t : Text) (start stop : Nat) : Text :=
  match t with
  | [] => []
  | c :: t =>
      let later := sliceFrom (offset + c.utf8Size) t start stop
      if start ≤ offset ∧ offset < stop then c :: later else later

/-- The characters of a text from a byte offset up to another. -/
def slice (t : Text) (start stop : Nat) : Text :=
  sliceFrom 0 t start stop

section Slices

variable {s t : Text} {a b c n offset start stop : Nat}

/-! ### Boundaries -/

/-- Boundaries are the offsets at which a text can be cut. -/
theorem isBoundary_iff_isSome_cut? : IsBoundary t n ↔ (cut? t n).isSome = true := by
  rw [Option.isSome_iff_exists]
  constructor
  · rintro ⟨before, after, rfl, rfl⟩
    exact ⟨_, cut?_append before after⟩
  · rintro ⟨⟨before, after⟩, hcut⟩
    obtain ⟨ht, hn⟩ := cut?_eq_some_iff.1 hcut
    exact ⟨before, after, ht, hn.symm⟩

instance (t : Text) (n : Nat) : Decidable (IsBoundary t n) :=
  decidable_of_iff ((cut? t n).isSome = true) isBoundary_iff_isSome_cut?.symm

theorem isBoundary_zero (t : Text) : IsBoundary t 0 :=
  ⟨[], t, rfl, rfl⟩

theorem isBoundary_size (t : Text) : IsBoundary t (size t) :=
  ⟨t, [], (List.append_nil t).symm, rfl⟩

theorem IsBoundary.le_size (h : IsBoundary t n) : n ≤ size t := by
  obtain ⟨before, after, rfl, rfl⟩ := h
  rw [size_append]
  omega

/-- Whether an offset is a boundary is decided by what stands in front of it. -/
theorem isBoundary_append_of_le (hn : n ≤ size s) : IsBoundary (s ++ t) n ↔ IsBoundary s n := by
  constructor
  · rintro ⟨before, after, heq, hbefore⟩
    rcases List.append_eq_append_iff.1 heq with ⟨m, hm, -⟩ | ⟨m, hm, -⟩
    · -- The first part cannot be longer, so it is the whole of `s`.
      have hsize : size before = size s := by
        have htotal := congrArg size hm
        rw [size_append] at htotal
        omega
      rw [← hbefore, hsize]
      exact isBoundary_size s
    · exact ⟨before, m, hm, hbefore⟩
  · rintro ⟨before, after, rfl, hbefore⟩
    exact ⟨before, after ++ t, List.append_assoc _ _ _, hbefore⟩

/-- Two boundaries divide a text into three parts. -/
theorem IsBoundary.exists_append (ha : IsBoundary t a) (hb : IsBoundary t b) (hab : a ≤ b) :
    ∃ x y z, t = x ++ (y ++ z) ∧ size x = a ∧ size (x ++ y) = b := by
  obtain ⟨front, z, rfl, rfl⟩ := hb
  obtain ⟨x, y, rfl, hx⟩ := (isBoundary_append_of_le hab).1 ha
  exact ⟨x, y, z, List.append_assoc _ _ _, hx, rfl⟩

/-! ### Slices -/

theorem sliceFrom_append (offset : Nat) (s t : Text) (start stop : Nat) :
    sliceFrom offset (s ++ t) start stop =
      sliceFrom offset s start stop ++ sliceFrom (offset + size s) t start stop := by
  induction s generalizing offset with
  | nil => simp [sliceFrom]
  | cons c s ih =>
    simp only [List.cons_append, sliceFrom, ih, size_cons, Nat.add_assoc]
    split
    · rfl
    · rfl

theorem sliceFrom_eq_nil_of_before (h : offset + size t ≤ start) :
    sliceFrom offset t start stop = [] := by
  induction t generalizing offset with
  | nil => rfl
  | cons c t ih =>
    have hpos := c.utf8Size_pos
    rw [size_cons] at h
    rw [sliceFrom, if_neg (by omega)]
    exact ih (by omega)

theorem sliceFrom_eq_nil_of_behind (h : stop ≤ offset) : sliceFrom offset t start stop = [] := by
  induction t generalizing offset with
  | nil => rfl
  | cons c t ih =>
    rw [sliceFrom, if_neg (by omega)]
    exact ih (by omega)

theorem sliceFrom_eq_self (hstart : start ≤ offset) (hstop : offset + size t ≤ stop) :
    sliceFrom offset t start stop = t := by
  induction t generalizing offset with
  | nil => rfl
  | cons c t ih =>
    have hpos := c.utf8Size_pos
    rw [size_cons] at hstop
    rw [sliceFrom, if_pos (by omega), ih (by omega) (by omega)]

/-- Of three parts of a text the slice between the boundaries is the one in the middle. -/
theorem slice_append (x y z : Text) : slice (x ++ (y ++ z)) (size x) (size (x ++ y)) = y := by
  rw [slice, sliceFrom_append, sliceFrom_append, size_append,
    sliceFrom_eq_nil_of_before (by omega), sliceFrom_eq_self (by omega) (by omega),
    sliceFrom_eq_nil_of_behind (by omega), List.nil_append, List.append_nil]

theorem size_slice (ha : IsBoundary t a) (hb : IsBoundary t b) (hab : a ≤ b) :
    a + size (slice t a b) = b := by
  obtain ⟨x, y, z, rfl, rfl, rfl⟩ := ha.exists_append hb hab
  rw [slice_append, size_append]

/-- Two slices that meet at a boundary are one. -/
theorem slice_append_slice (ha : IsBoundary t a) (hb : IsBoundary t b) (hc : IsBoundary t c)
    (hab : a ≤ b) (hbc : b ≤ c) : slice t a b ++ slice t b c = slice t a c := by
  obtain ⟨front, z, w, rfl, hfront, rfl⟩ := hb.exists_append hc hbc
  obtain ⟨x, y, rfl, rfl⟩ := (isBoundary_append_of_le (by omega)).1 ha
  subst hfront
  have hfirst := slice_append x y (z ++ w)
  have hwhole := slice_append x (y ++ z) w
  simp only [List.append_assoc] at hfirst hwhole
  rw [slice_append (x ++ y) z w, List.append_assoc, hfirst, List.append_assoc, hwhole]

theorem slice_zero_size (t : Text) : slice t 0 (size t) = t := by
  simpa using slice_append [] t []

end Slices
end Text
end BackingField
