import BackingField.Text.Utf8

/-!
# Decoding what was encoded

The UTF-8 form of a text decodes to that text, strictly (`decode?_encode`) and with replacement
(`decodeLossy_encode`).  The proof goes by the number of bytes of a character.
-/

namespace BackingField
namespace Utf8

theorem toNat_toUInt8 {n : Nat} (h : n < 256) : n.toUInt8.toNat = n := by
  simp [Nat.toUInt8, UInt8.toNat_ofNat']
  omega

/-- Code points leave out the surrogates and end below `0x110000`. -/
theorem toNat_range (c : Char) :
    c.toNat < 0xD800 ∨ 0xDFFF < c.toNat ∧ c.toNat < 0x110000 :=
  c.valid

theorem continue?_zero (low high bits : Nat) (bytes : Bytes) :
    continue? 0 low high bits bytes = (some bits, bytes) := by
  cases bytes <;> rw [continue?]

/-- A byte within bounds adds six bits. -/
theorem continue?_cons {more low high bits n : Nat} (bytes : Bytes)
    (hlow : low ≤ n) (hhigh : n ≤ high) (hn : n < 256) :
    continue? (more + 1) low high bits (n.toUInt8 :: bytes) =
      continue? more 0x80 0xBF (bits * 64 + (n - 0x80)) bytes := by
  rw [continue?]
  simp [toNat_toUInt8 hn, hlow, hhigh]

/-- What follows a first byte decides what the first byte starts. -/
theorem next_of_continue? {n point : Nat} {lead : Lead} {bytes rest : Bytes} (hn : n < 256)
    (hlead : lead? n = some lead)
    (hrest : continue? lead.more lead.low lead.high lead.bits bytes = (some point, rest)) :
    next n.toUInt8 bytes = (some (Char.ofNat point), rest) := by
  simp [next, toNat_toUInt8 hn, hlead, hrest]

theorem lead?_two {n : Nat} (h : 2 ≤ n) (hn : n < 32) :
    lead? (0xC0 + n) = some ⟨1, 0x80, 0xBF, n⟩ := by
  simp only [lead?]
  rw [if_neg (by omega), if_neg (by omega), if_pos (by omega)]
  simp

theorem lead?_three {n : Nat} (hn : n < 16) :
    lead? (0xE0 + n) =
      some ⟨2, if n = 0 then 0xA0 else 0x80, if n = 13 then 0x9F else 0xBF, n⟩ := by
  have hlast : 0xE0 + n = 0xED ↔ n = 13 := by omega
  simp only [lead?]
  rw [if_neg (by omega), if_neg (by omega), if_neg (by omega), if_pos (by omega)]
  simp [hlast]

theorem lead?_four {n : Nat} (hn : n < 5) :
    lead? (0xF0 + n) =
      some ⟨3, if n = 0 then 0x90 else 0x80, if n = 4 then 0x8F else 0xBF, n⟩ := by
  have hlast : 0xF0 + n = 0xF4 ↔ n = 4 := by omega
  simp only [lead?]
  rw [if_neg (by omega), if_neg (by omega), if_neg (by omega), if_neg (by omega),
    if_pos (by omega)]
  simp [hlast]

theorem next_one {n : Nat} (bytes : Bytes) (h : n < 0x80) :
    next n.toUInt8 bytes = (some (Char.ofNat n), bytes) :=
  next_of_continue? (by omega) (by simp [lead?, h]; rfl) (continue?_zero _ _ _ _)

theorem next_two {n : Nat} (bytes : Bytes) (hlow : 0x80 ≤ n) (hhigh : n < 0x800) :
    next (0xC0 + n / 64).toUInt8 ((0x80 + n % 64).toUInt8 :: bytes) =
      (some (Char.ofNat n), bytes) := by
  have hvalue : n / 64 * 64 + (0x80 + n % 64 - 0x80) = n := by omega
  refine next_of_continue? (by omega) (lead?_two (by omega) (by omega)) ?_
  dsimp only
  rw [continue?_cons bytes (by omega) (by omega) (by omega), continue?_zero, hvalue]

theorem next_three {n : Nat} (bytes : Bytes) (hlow : 0x800 ≤ n) (hhigh : n < 0x10000)
    (hsurrogate : n < 0xD800 ∨ 0xDFFF < n) :
    next (0xE0 + n / 4096).toUInt8
        ((0x80 + n / 64 % 64).toUInt8 :: (0x80 + n % 64).toUInt8 :: bytes) =
      (some (Char.ofNat n), bytes) := by
  have hvalue : (n / 4096 * 64 + (0x80 + n / 64 % 64 - 0x80)) * 64 +
      (0x80 + n % 64 - 0x80) = n := by omega
  refine next_of_continue? (by omega) (lead?_three (by omega)) ?_
  dsimp only
  rw [continue?_cons _ (by split <;> omega) (by split <;> omega) (by omega),
    continue?_cons bytes (by omega) (by omega) (by omega), continue?_zero, hvalue]

theorem next_four {n : Nat} (bytes : Bytes) (hlow : 0x10000 ≤ n) (hhigh : n < 0x110000) :
    next (0xF0 + n / 262144).toUInt8
        ((0x80 + n / 4096 % 64).toUInt8 :: (0x80 + n / 64 % 64).toUInt8 ::
          (0x80 + n % 64).toUInt8 :: bytes) =
      (some (Char.ofNat n), bytes) := by
  have hvalue : ((n / 262144 * 64 + (0x80 + n / 4096 % 64 - 0x80)) * 64 +
      (0x80 + n / 64 % 64 - 0x80)) * 64 + (0x80 + n % 64 - 0x80) = n := by omega
  refine next_of_continue? (by omega) (lead?_four (by omega)) ?_
  dsimp only
  rw [continue?_cons _ (by split <;> omega) (by split <;> omega) (by omega),
    continue?_cons _ (by omega) (by omega) (by omega),
    continue?_cons bytes (by omega) (by omega) (by omega), continue?_zero, hvalue]

/-- The UTF-8 form of a character reads as that character, whatever comes behind it. -/
theorem chars_encodeChar_append (c : Char) (bytes : Bytes) :
    chars (encodeChar c ++ bytes) = some c :: chars bytes := by
  have hrange := toNat_range c
  have hof : Char.ofNat c.toNat = c := Char.ofNat_toNat c
  unfold encodeChar
  simp only
  split
  · next h =>
    rw [List.cons_append, List.nil_append, chars, next_one bytes h, hof]
  · split
    · next hlow hhigh =>
      simp only [List.cons_append, List.nil_append]
      rw [chars, next_two bytes (by omega) hhigh, hof]
    · split
      · next hlow hhigh =>
        simp only [List.cons_append, List.nil_append]
        rw [chars, next_three bytes (by omega) hhigh (by omega), hof]
      · next hlow =>
        simp only [List.cons_append, List.nil_append]
        rw [chars, next_four bytes (by omega) (by omega), hof]

theorem encode_cons (c : Char) (t : Text) : encode (c :: t) = encodeChar c ++ encode t := rfl

/-- Nothing in the UTF-8 form of a text is malformed. -/
theorem chars_encode (t : Text) : chars (encode t) = t.map some := by
  induction t with
  | nil => simp [encode, chars]
  | cons c t ih => rw [encode_cons, chars_encodeChar_append, ih, List.map_cons]

theorem decode?_encode (t : Text) : decode? (encode t) = some t := by
  rw [decode?, chars_encode]
  induction t with
  | nil => rfl
  | cons c t ih => simp [ih]

theorem decodeLossy_encode (t : Text) : decodeLossy (encode t) = t := by
  rw [decodeLossy, chars_encode, List.map_map]
  exact List.map_id t

end Utf8
end BackingField
