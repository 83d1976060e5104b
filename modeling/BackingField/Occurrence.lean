import BackingField.Declaration.Reader

/-!
# Occurrences of declarations in a text

A declaration occurs only at a line start, that is at the beginning of the text or right behind a
line feed.  `Occurrence.find` lists the occurrences from left to right; the search for the next one
goes on at the end of the one before, so the spans are disjoint.
-/

namespace BackingField

/-- A declaration together with the place where it stands. -/
@[ext]
structure Occurrence where
  /-- Byte offset of the first character. -/
  start : Nat
  /-- Byte offset behind the closing brace. -/
  stop : Nat
  /-- The characters in between. -/
  text : Text
  /-- What they spell. -/
  declaration : Declaration
deriving DecidableEq

namespace Occurrence

/-- Line ending inside an occurrence. -/
def lineEnding (o : Occurrence) : LineEnding :=
  LineEnding.ofText o.text

/-- What takes the place of an occurrence. -/
def expanded (o : Occurrence) : Text :=
  o.declaration.expanded o.lineEnding

/-- The occurrence of a declaration at the beginning of a text, given the text behind it. -/
def atFront (offset : Nat) (t : Text) (declaration : Declaration) (rest : Text) : Occurrence :=
  let text := t.take (t.length - rest.length)
  ⟨offset, offset + Text.size text, text, declaration⟩

/-- Occurrences in a text that begins at the given byte offset, at a line start or not. -/
def findFrom (offset : Nat) (lineStart : Bool) (t : Text) : List Occurrence :=
  match _h : if lineStart then Declaration.read? t else none with
  | some (declaration, rest) =>
      let o := atFront offset t declaration rest
      o :: findFrom o.stop false rest
  | none =>
      match t with
      | [] => []
      | c :: t => findFrom (offset + c.utf8Size) (c == '\n') t
termination_by t.length
decreasing_by
  · cases lineStart with
    | false => simp at _h
    | true => exact Declaration.length_lt_of_read? (by simpa using _h)
  · simp

@[simp] theorem findFrom_nil (offset : Nat) (lineStart : Bool) :
    findFrom offset lineStart [] = [] := by
  have hread : Declaration.read? [] = none := by
    cases h : Declaration.read? [] with
    | none => rfl
    | some result => exact absurd (Declaration.length_lt_of_read? h) (by simp)
  rw [findFrom]
  split
  · next h => cases lineStart <;> simp [hread] at h
  · rfl

/-- Away from a line start the search moves on by one character. -/
theorem findFrom_false_cons (offset : Nat) (c : Char) (t : Text) :
    findFrom offset false (c :: t) = findFrom (offset + c.utf8Size) (c == '\n') t := by
  rw [findFrom]
  split
  · next h => simp at h
  · rfl

/-- At a line start where no declaration stands the search moves on by one character. -/
theorem findFrom_true_cons_of_none {offset : Nat} {c : Char} {t : Text}
    (h : Declaration.read? (c :: t) = none) :
    findFrom offset true (c :: t) = findFrom (offset + c.utf8Size) (c == '\n') t := by
  rw [findFrom]
  split
  · next hsome => simp [h] at hsome
  · rfl

/-- At a line start where a declaration stands the search goes on behind it. -/
theorem findFrom_true_of_some {offset : Nat} {t rest : Text} {d : Declaration}
    (h : Declaration.read? t = some (d, rest)) :
    findFrom offset true t =
      atFront offset t d rest :: findFrom (atFront offset t d rest).stop false rest := by
  rw [findFrom]
  split
  · next d' rest' hsome =>
    have heq : some (d, rest) = some (d', rest') := by rw [← h, ← hsome]; simp
    obtain ⟨rfl, rfl⟩ : d = d' ∧ rest = rest' := by simpa using heq
    rfl
  · next hnone => simp [h] at hnone

/-- Occurrences in a text, from left to right. -/
def find (t : Text) : List Occurrence :=
  findFrom 0 true t

end Occurrence
end BackingField
