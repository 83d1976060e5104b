import BackingField.Text.Basic

/-!
# Classes of characters

A class of characters is given by the ranges of its code points in ascending order.  The blanks are
the characters that count as white space between the parts of a declaration: the line ends and tabs,
the spaces of every width, and the separators of lines and paragraphs.  Of them, only the ordinary
space and the tab count as indentation.
-/

namespace BackingField
namespace Text

/-- Whether a code point lies in one of the ranges.  The ranges ascend, so the search is over at the
first range that starts above the code point. -/
def inRanges : List (Nat × Nat) → Nat → Bool
  | [], _ => false
  | (first, last) :: ranges, n =>
      if n < first then false else n ≤ last || inRanges ranges n

/-- A code point that is found lies between the ends of one of the ranges. -/
theorem exists_mem_of_inRanges {ranges : List (Nat × Nat)} {n : Nat}
    (h : inRanges ranges n = true) : ∃ r ∈ ranges, r.1 ≤ n ∧ n ≤ r.2 := by
  induction ranges with
  | nil => simp [inRanges] at h
  | cons r ranges ih =>
    obtain ⟨first, last⟩ := r
    by_cases hlt : n < first
    · simp [inRanges, hlt] at h
    · by_cases hle : n ≤ last
      · exact ⟨(first, last), by simp, by simp; omega, hle⟩
      · obtain ⟨r, hmem, hr⟩ := ih (by simpa [inRanges, hlt, hle] using h)
        exact ⟨r, by simp [hmem], hr⟩

/-- Whether two ranges have no code point in common. -/
def apart (r s : Nat × Nat) : Bool :=
  r.2 < s.1 || s.2 < r.1

/-! ### Blanks -/

/-- Code points of the blanks, ascending. -/
def blankRanges : List (Nat × Nat) :=
  [(0x9, 0xD), (0x20, 0x20), (0x85, 0x85), (0xA0, 0xA0), (0x1680, 0x1680), (0x2000, 0x200A),
   (0x2028, 0x2029), (0x202F, 0x202F), (0x205F, 0x205F), (0x3000, 0x3000)]

/-- Whether a character is white space. -/
def isBlank (c : Char) : Bool :=
  inRanges blankRanges c.toNat

/-- Whether a character may indent a line. -/
def isIndent (c : Char) : Bool :=
  c == ' ' || c == '\t'

/-- Indentation is made of blanks. -/
theorem isBlank_of_isIndent {c : Char} (h : isIndent c = true) : isBlank c = true := by
  simp only [isIndent, Bool.or_eq_true, beq_iff_eq] at h
  obtain rfl | rfl := h <;> decide

end Text
end BackingField
