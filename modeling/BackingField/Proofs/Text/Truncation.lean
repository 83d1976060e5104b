import BackingField.Text.Utf8.RoundTrip

/-!
# Decoding what was cut short

The beginning of the UTF-8 form of a text need not be UTF-8: it may end inside a character, and then
it does not decode at all.  Where it decodes, the result is a beginning of the text
(`isPrefix_of_decode?`).
-/

namespace BackingField
namespace Utf8

/-- Too few bytes make no character. -/
theorem continue?_eq_none {more low high bits : Nat} {bytes : Bytes} (h : bytes.length < more) :
    (continue? more low high bits bytes).1 = none := by
  fun_induction continue? more low high bits bytes with
  | case1 => simp at h
  | case2 => rfl
  | case3 low high bits more b bytes hb ih =>
    rw [List.length_cons] at h
    exact ih (by omega)
  | case4 => rfl

/-- The first byte of a character announces how many bytes follow. -/
theorem exists_lead_encodeChar (c : Char) :
    ∃ b bytes lead, encodeChar c = b :: bytes ∧ lead? b.toNat = some lead ∧
      lead.more = bytes.length := by
  have hrange := toNat_range c
  have hbyte {n : Nat} {lead : Lead} (hn : n < 256) (h : lead? n = some lead) :
      lead? n.toUInt8.toNat = some lead := by
    rw [toNat_toUInt8 hn]
    exact h
  unfold encodeChar
  simp only
  split
  · next h => exact ⟨_, _, ⟨0, 0x80, 0xBF, c.toNat⟩, rfl, hbyte (by omega) (if_pos h), rfl⟩
  · split
    · exact ⟨_, _, _, rfl, hbyte (by omega) (lead?_two (by omega) (by omega)), rfl⟩
    · split
      · exact ⟨_, _, _, rfl, hbyte (by omega) (lead?_three (by omega)), rfl⟩
      · exact ⟨_, _, _, rfl, hbyte (by omega) (lead?_four (by omega)), rfl⟩

theorem decode?_encodeChar_append (c : Char) (bytes : Bytes) :
    decode? (encodeChar c ++ bytes) = (decode? bytes).map (c :: ·) := by
  rw [decode?, chars_encodeChar_append, decode?, List.mapM_cons]
  cases (chars bytes).mapM id with
  | none => rfl
  | some s => rfl

/-- Part of a character does not decode. -/
theorem decode?_eq_none_of_encodeChar {c : Char} {bytes rest : Bytes}
    (h : encodeChar c = bytes ++ rest) (hbytes : bytes ≠ []) (hrest : rest ≠ []) :
    decode? bytes = none := by
  obtain ⟨b, following, lead, hchar, hlead, hmore⟩ := exists_lead_encodeChar c
  cases bytes with
  | nil => exact absurd rfl hbytes
  | cons b' bytes =>
    obtain ⟨rfl, hfollowing⟩ : b' = b ∧ bytes ++ rest = following := by
      rw [hchar] at h
      simpa [eq_comm] using h
    have hshort : bytes.length < lead.more := by
      have hlength := List.length_pos_iff.2 hrest
      rw [hmore, ← hfollowing, List.length_append]
      omega
    have hnext : (next b' bytes).1 = none := by
      simp [next, hlead, continue?_eq_none hshort]
    simp [decode?, chars, hnext]

/-- A beginning of the UTF-8 form of a text decodes to a beginning of the text, if at all. -/
theorem isPrefix_of_decode? {t s : Text} {bytes : Bytes} (h : bytes <+: encode t)
    (hdecode : decode? bytes = some s) : s <+: t := by
  induction t generalizing bytes s with
  | nil =>
    obtain rfl : bytes = [] := by simpa [encode] using h
    obtain rfl : s = [] := by simpa [decode?, chars] using hdecode.symm
    exact List.nil_prefix
  | cons c t ih =>
    have hwhole {later : Bytes} (hlater : later <+: encode t)
        (hdecode : decode? (encodeChar c ++ later) = some s) : s <+: c :: t := by
      rw [decode?_encodeChar_append] at hdecode
      obtain ⟨s', hs', rfl⟩ := Option.map_eq_some_iff.1 hdecode
      exact (List.prefix_cons_inj c).2 (ih hlater hs')
    obtain ⟨rest, hrest⟩ := h
    rw [encode_cons] at hrest
    -- The bytes end inside the first character or behind it.
    rcases List.append_eq_append_iff.1 hrest with ⟨m, hchar, -⟩ | ⟨m, hbytes, hencode⟩
    · by_cases hm : m = []
      · rw [hm, List.append_nil] at hchar
        refine hwhole List.nil_prefix ?_
        rw [List.append_nil, hchar]
        exact hdecode
      · by_cases hnil : bytes = []
        · obtain rfl : s = [] := by simpa [hnil, decode?, chars] using hdecode.symm
          exact List.nil_prefix
        · rw [decode?_eq_none_of_encodeChar hchar hnil hm] at hdecode
          simp at hdecode
    · rw [hbytes] at hdecode
      exact hwhole ⟨rest, hencode.symm⟩ hdecode

end Utf8
end BackingField
