import BackingField.Text.Utf8.RoundTrip

/-!
# Only encoded texts decode

Bytes decode to a text only when they are its UTF-8 form (`decode?_eq_some_iff`), so bytes are UTF-8
exactly when some text is stored as these bytes.  The proof goes from the first byte of a character,
which says how many bytes follow and within which bounds, to the code point and back.
-/

namespace BackingField
namespace Utf8

theorem toNat_ofNat {n : Nat} (h : n < 0xD800 ∨ 0xDFFF < n ∧ n < 0x110000) :
    (Char.ofNat n).toNat = n := by
  rw [Char.ofNat, dif_pos h]
  rfl

/-- A byte is known by its number. -/
theorem toUInt8_eq {n : Nat} {b : UInt8} (h : n = b.toNat) : n.toUInt8 = b := by
  rw [h]
  exact UInt8.toNat_inj.1 (toNat_toUInt8 b.toNat_lt)

/-! ### The form of a code point, by the number of its bytes -/

theorem encodeChar_one {b : UInt8} (h : b.toNat < 0x80) : encodeChar (Char.ofNat b.toNat) = [b] := by
  rw [encodeChar, toNat_ofNat (by omega), if_pos h, toUInt8_eq rfl]

theorem encodeChar_two {b b₁ : UInt8} (hlow : 0xC2 ≤ b.toNat) (hhigh : b.toNat < 0xE0)
    (hlow₁ : 0x80 ≤ b₁.toNat) (hhigh₁ : b₁.toNat ≤ 0xBF) :
    encodeChar (Char.ofNat ((b.toNat - 0xC0) * 64 + (b₁.toNat - 0x80))) = [b, b₁] := by
  generalize hn : (b.toNat - 0xC0) * 64 + (b₁.toNat - 0x80) = n
  rw [encodeChar, toNat_ofNat (by omega), if_neg (by omega), if_pos (by omega)]
  rw [toUInt8_eq (by omega : 0xC0 + n / 64 = b.toNat), toUInt8_eq (by omega : _ = b₁.toNat)]

theorem encodeChar_three {b b₁ b₂ : UInt8} (hlow : 0xE0 ≤ b.toNat) (hhigh : b.toNat < 0xF0)
    (hlow₁ : (if b.toNat = 0xE0 then 0xA0 else 0x80) ≤ b₁.toNat)
    (hhigh₁ : b₁.toNat ≤ if b.toNat = 0xED then 0x9F else 0xBF)
    (hlow₂ : 0x80 ≤ b₂.toNat) (hhigh₂ : b₂.toNat ≤ 0xBF) :
    encodeChar (Char.ofNat (((b.toNat - 0xE0) * 64 + (b₁.toNat - 0x80)) * 64 +
      (b₂.toNat - 0x80))) = [b, b₁, b₂] := by
  generalize hn : ((b.toNat - 0xE0) * 64 + (b₁.toNat - 0x80)) * 64 + (b₂.toNat - 0x80) = n
  -- The bounds of the second byte keep out overlong forms and surrogates.
  have hsecond : 0x80 ≤ b₁.toNat ∧ b₁.toNat ≤ 0xBF ∧ (b.toNat = 0xE0 → 0xA0 ≤ b₁.toNat) ∧
      (b.toNat = 0xED → b₁.toNat ≤ 0x9F) := by
    split at hlow₁ <;> split at hhigh₁ <;> omega
  rw [encodeChar, toNat_ofNat (by omega), if_neg (by omega), if_neg (by omega), if_pos (by omega)]
  rw [toUInt8_eq (by omega : 0xE0 + n / 4096 = b.toNat),
    toUInt8_eq (by omega : 0x80 + n / 64 % 64 = b₁.toNat), toUInt8_eq (by omega : _ = b₂.toNat)]

theorem encodeChar_four {b b₁ b₂ b₃ : UInt8} (hlow : 0xF0 ≤ b.toNat) (hhigh : b.toNat < 0xF5)
    (hlow₁ : (if b.toNat = 0xF0 then 0x90 else 0x80) ≤ b₁.toNat)
    (hhigh₁ : b₁.toNat ≤ if b.toNat = 0xF4 then 0x8F else 0xBF)
    (hlow₂ : 0x80 ≤ b₂.toNat) (hhigh₂ : b₂.toNat ≤ 0xBF)
    (hlow₃ : 0x80 ≤ b₃.toNat) (hhigh₃ : b₃.toNat ≤ 0xBF) :
    encodeChar (Char.ofNat ((((b.toNat - 0xF0) * 64 + (b₁.toNat - 0x80)) * 64 +
      (b₂.toNat - 0x80)) * 64 + (b₃.toNat - 0x80))) = [b, b₁, b₂, b₃] := by
  generalize hn : (((b.toNat - 0xF0) * 64 + (b₁.toNat - 0x80)) * 64 + (b₂.toNat - 0x80)) * 64 +
    (b₃.toNat - 0x80) = n
  have hsecond : 0x80 ≤ b₁.toNat ∧ b₁.toNat ≤ 0xBF ∧ (b.toNat = 0xF0 → 0x90 ≤ b₁.toNat) ∧
      (b.toNat = 0xF4 → b₁.toNat ≤ 0x8F) := by
    split at hlow₁ <;> split at hhigh₁ <;> omega
  rw [encodeChar, toNat_ofNat (by omega), if_neg (by omega), if_neg (by omega), if_neg (by omega)]
  rw [toUInt8_eq (by omega : 0xF0 + n / 262144 = b.toNat),
    toUInt8_eq (by omega : 0x80 + n / 4096 % 64 = b₁.toNat),
    toUInt8_eq (by omega : 0x80 + n / 64 % 64 = b₂.toNat), toUInt8_eq (by omega : _ = b₃.toNat)]

/-! ### What was read of one character -/

/-- A byte that was read lies within its bounds and adds six bits. -/
theorem exists_of_continue? {more low high bits point : Nat} {bytes rest : Bytes}
    (h : continue? (more + 1) low high bits bytes = (some point, rest)) :
    ∃ b following, bytes = b :: following ∧ low ≤ b.toNat ∧ b.toNat ≤ high ∧
      continue? more 0x80 0xBF (bits * 64 + (b.toNat - 0x80)) following = (some point, rest) := by
  cases bytes with
  | nil => simp [continue?] at h
  | cons b following =>
    rw [continue?] at h
    split at h
    · next hbounds => exact ⟨b, following, rfl, hbounds.1, hbounds.2, h⟩
    · simp at h

theorem eq_of_continue?_zero {low high bits point : Nat} {bytes rest : Bytes}
    (h : continue? 0 low high bits bytes = (some point, rest)) : point = bits ∧ bytes = rest := by
  rw [continue?_zero] at h
  simpa [eq_comm] using h

/-- The character that was read, in its UTF-8 form, is what is gone. -/
theorem eq_encodeChar_append_of_next {b : UInt8} {bytes rest : Bytes} {c : Char}
    (h : next b bytes = (some c, rest)) : b :: bytes = encodeChar c ++ rest := by
  unfold next at h
  split at h
  · simp at h
  · next lead hlead =>
    obtain ⟨hpoint, hbehind⟩ := Prod.mk.inj h
    obtain ⟨point, hsome, hc⟩ := Option.map_eq_some_iff.1 hpoint
    have hread : continue? lead.more lead.low lead.high lead.bits bytes = (some point, rest) :=
      Prod.ext hsome hbehind
    unfold lead? at hlead
    -- The first byte stands alone, or it is followed by one, two or three others.
    split at hlead
    · next hone =>
      obtain rfl := Option.some.inj hlead
      obtain ⟨hvalue, hrest⟩ := eq_of_continue?_zero hread
      rw [← hc, hvalue, hrest, encodeChar_one hone]
      rfl
    split at hlead
    · simp at hlead
    split at hlead
    · next hlow hhigh =>
      obtain rfl := Option.some.inj hlead
      obtain ⟨b₁, bytes₁, rfl, hlow₁, hhigh₁, hread₁⟩ := exists_of_continue? hread
      obtain ⟨hvalue, hrest⟩ := eq_of_continue?_zero hread₁
      rw [← hc, hvalue, hrest, encodeChar_two (by omega) hhigh hlow₁ hhigh₁]
      rfl
    split at hlead
    · next hlow hhigh =>
      obtain rfl := Option.some.inj hlead
      obtain ⟨b₁, bytes₁, rfl, hlow₁, hhigh₁, hread₁⟩ := exists_of_continue? hread
      obtain ⟨b₂, bytes₂, rfl, hlow₂, hhigh₂, hread₂⟩ := exists_of_continue? hread₁
      obtain ⟨hvalue, hrest⟩ := eq_of_continue?_zero hread₂
      rw [← hc, hvalue, hrest, encodeChar_three (by omega) hhigh hlow₁ hhigh₁ hlow₂ hhigh₂]
      rfl
    split at hlead
    · next hlow hhigh =>
      obtain rfl := Option.some.inj hlead
      obtain ⟨b₁, bytes₁, rfl, hlow₁, hhigh₁, hread₁⟩ := exists_of_continue? hread
      obtain ⟨b₂, bytes₂, rfl, hlow₂, hhigh₂, hread₂⟩ := exists_of_continue? hread₁
      obtain ⟨b₃, bytes₃, rfl, hlow₃, hhigh₃, hread₃⟩ := exists_of_continue? hread₂
      obtain ⟨hvalue, hrest⟩ := eq_of_continue?_zero hread₃
      rw [← hc, hvalue, hrest, encodeChar_four (by omega) hhigh hlow₁ hhigh₁ hlow₂ hhigh₂ hlow₃ hhigh₃]
      rfl
    · simp at hlead

/-! ### Whole texts -/

theorem decode?_cons (b : UInt8) (bytes : Bytes) : decode? (b :: bytes) =
    (next b bytes).1.bind fun c => (decode? (next b bytes).2).map (c :: ·) := by
  rw [decode?, chars, List.mapM_cons, decode?]
  cases (next b bytes).1 with
  | none => rfl
  | some c => cases (chars (next b bytes).2).mapM id <;> rfl

theorem encode_of_decode? {bytes : Bytes} {t : Text} (h : decode? bytes = some t) :
    encode t = bytes := by
  induction bytes using chars.induct generalizing t with
  | case1 =>
    obtain rfl : t = [] := by simpa [decode?, chars] using h.symm
    rfl
  | case2 b bytes ih =>
    rw [decode?_cons] at h
    obtain ⟨c, hc, hmap⟩ := Option.bind_eq_some_iff.1 h
    obtain ⟨s, hs, rfl⟩ := Option.map_eq_some_iff.1 hmap
    rw [encode_cons, ih hs]
    exact (eq_encodeChar_append_of_next (Prod.ext hc rfl)).symm

/-- Bytes decode to a text exactly when they are its UTF-8 form. -/
theorem decode?_eq_some_iff {bytes : Bytes} {t : Text} : decode? bytes = some t ↔ encode t = bytes := by
  constructor
  · exact encode_of_decode?
  · rintro rfl
    exact decode?_encode t

end Utf8
end BackingField
