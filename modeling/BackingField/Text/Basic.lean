/-!
# Text and byte offsets

A text is a list of characters.  Places in a text are given as byte offsets into its UTF-8 form, so
an offset is usable only when it falls between two characters: `cut?` divides a text at such an
offset and refuses every other one.
-/

namespace BackingField

/-- Characters in order of appearance. -/
abbrev Text := List Char

/-- Contents of a file, or a name as the file system stores it. -/
abbrev Bytes := List UInt8

namespace Text

/-- Number of bytes of the UTF-8 form of a text. -/
def size : Text → Nat
  | [] => 0
  | c :: t => c.utf8Size + size t

/-- Divide a text at a byte offset.  There is no result when the offset lies past the end of the
text or inside a character. -/
def cut? : Text → Nat → Option (Text × Text)
  | t, 0 => some ([], t)
  | [], _ + 1 => none
  | c :: t, n + 1 =>
      if c.utf8Size ≤ n + 1 then
        (cut? t (n + 1 - c.utf8Size)).map fun (before, after) => (c :: before, after)
      else
        none

/-- The rest of a text that begins with the given word. -/
def behind? : (word : Text) → Text → Option Text
  | [], t => some t
  | _ :: _, [] => none
  | c :: word, d :: t => if c = d then behind? word t else none

/-- Decimal digits of a number. -/
def ofNat (n : Nat) : Text :=
  Nat.toDigits 10 n

@[simp] theorem size_nil : size [] = 0 := rfl

@[simp] theorem size_cons (c : Char) (t : Text) : size (c :: t) = c.utf8Size + size t := rfl

@[simp] theorem size_append (s t : Text) : size (s ++ t) = size s + size t := by
  induction s with
  | nil => simp
  | cons c s ih => simp [ih, Nat.add_assoc]

/-- A text can be cut behind every beginning of it. -/
theorem cut?_append (s t : Text) : cut? (s ++ t) (size s) = some (s, t) := by
  induction s with
  | nil => simp [cut?]
  | cons c s ih =>
    obtain ⟨n, hn⟩ : ∃ n, c.utf8Size + size s = n + 1 :=
      ⟨c.utf8Size + size s - 1, by have := c.utf8Size_pos; omega⟩
    have hrest : n + 1 - c.utf8Size = size s := by omega
    simp [cut?, hn, hrest, ih]
    omega

/-- A cut gives the two parts of the text, and the first has as many bytes as the offset says. -/
theorem append_eq_of_cut?_eq_some {t before after : Text} {n : Nat}
    (h : cut? t n = some (before, after)) : t = before ++ after ∧ n = size before := by
  fun_induction cut? t n generalizing before after with
  | case1 t => simp_all
  | case2 n => simp at h
  | case3 c t n hle ih =>
    obtain ⟨⟨b, a⟩, hcut, heq⟩ := Option.map_eq_some_iff.1 h
    obtain ⟨rfl, rfl⟩ : c :: b = before ∧ a = after := by simpa using heq
    obtain ⟨rfl, hsize⟩ := ih hcut
    exact ⟨rfl, by simp only [size_cons]; omega⟩
  | case4 c t n hlt => simp at h

/-- The parts of a cut are exactly those that make up the text, the first of the size asked for. -/
theorem cut?_eq_some_iff {t before after : Text} {n : Nat} :
    cut? t n = some (before, after) ↔ t = before ++ after ∧ n = size before :=
  ⟨append_eq_of_cut?_eq_some, fun ⟨ht, hn⟩ => ht ▸ hn ▸ cut?_append before after⟩

/-- The rest behind a word is what completes the word to the text. -/
theorem behind?_eq_some_iff {word t rest : Text} :
    behind? word t = some rest ↔ t = word ++ rest := by
  fun_induction behind? word t with
  | case1 t => simp [eq_comm]
  | case2 c word => simp
  | case3 word d t ih => simp [ih]
  | case4 c word d t hne => simp [Ne.symm hne]

end Text
end BackingField
