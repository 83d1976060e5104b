import BackingField.Declaration.Basic
import BackingField.Text.Word

/-!
# Reading a declaration

`Declaration.read?` reads a declaration at the beginning of a text.  Every run of characters is
taken as long as it goes: blanks and word characters exclude each other and the punctuation between
them is neither, so a shorter run could never be followed by what the declaration needs next.

The one place where two runs touch is a line break, where blanks up to a line feed meet the
indentation of the next line.  There the indentation is what follows the last line feed.
-/

namespace BackingField
namespace Declaration

open Text

/-- The text behind a fixed word. -/
def literal? (word : String) (t : Text) : Option Text :=
  Text.behind? word.toList t

/-- The text behind any number of blanks. -/
def skipBlanks (t : Text) : Text :=
  t.dropWhile isBlank

/-- The text behind at least one blank. -/
def blanks? : Text → Option Text
  | [] => none
  | c :: t => if isBlank c then some (skipBlanks t) else none

/-- A run of word characters, at least one, and the text behind it. -/
def word? (t : Text) : Option (Text × Text) :=
  match t.takeWhile isWord with
  | [] => none
  | c :: run => some (c :: run, t.dropWhile isWord)

/-- Indentation and the text behind it. -/
def indentation (t : Text) : Text × Text :=
  (t.takeWhile isIndent, t.dropWhile isIndent)

/-- What follows the last line feed of a run of blanks. -/
def afterLastFeed? : Text → Option Text
  | [] => none
  | c :: t =>
      match afterLastFeed? t with
      | some rest => some rest
      | none => if c = '\n' then some t else none

/-- Blanks that end in a line feed and indentation: the indentation and the text behind it. -/
def newLine? (t : Text) : Option (Text × Text) :=
  match afterLastFeed? (t.takeWhile isBlank) with
  | some indent => if indent.all isIndent then some (indent, t.dropWhile isBlank) else none
  | none => none

/-- Access keywords. -/
def accessWords : List String :=
  ["public", "private", "protected", "internal"]

/-- The access keyword at the beginning of a text and the text behind it. -/
def access? (t : Text) : Option (Text × Text) :=
  accessWords.findSome? fun word => (literal? word t).map fun rest => (word.toList, rest)

/-- Type arguments, empty where no angle bracket follows.  They go up to the first closing bracket,
over line ends if need be, and hold at least one character. -/
def typeArguments? (t : Text) : Option (Text × Text) :=
  match skipBlanks t with
  | '<' :: inner =>
      match inner.takeWhile (· ≠ '>'), inner.dropWhile (· ≠ '>') with
      | c :: body, '>' :: rest =>
          some (t.takeWhile isBlank ++ '<' :: c :: body ++ ['>'], rest)
      | _, _ => none
  | _ => some ([], t)

/-- Array brackets, if they follow, and the text behind them. -/
def arrayBrackets (t : Text) : Text × Text :=
  match literal? "[]" t with
  | some rest => ("[]".toList, rest)
  | none => ([], t)

/-- A type and the text behind it. -/
def type? (t : Text) : Option (Text × Text) := do
  let (word, t) ← word? t
  let (arguments, t) ← typeArguments? t
  let (brackets, t) := arrayBrackets t
  return (word ++ arguments ++ brackets, t)

/-- The setter without its indentation: the method that it calls, and the text behind it. -/
def setter? (t : Text) : Option (Text × Text) := do
  let t ← literal? "set" t
  let t ← literal? "=>" (skipBlanks t)
  let (method, t) ← word? (skipBlanks t)
  let t ← literal? "(" (skipBlanks t)
  let t ← literal? "ref" (skipBlanks t)
  let t ← blanks? t
  let t ← literal? "field" t
  let t ← literal? "," (skipBlanks t)
  let t ← literal? "value" (skipBlanks t)
  let t ← literal? ");" (skipBlanks t)
  return (method, t)

/-- The declaration at the beginning of a text, and the text behind its closing brace. -/
def read? (t : Text) : Option (Declaration × Text) := do
  let (indent, t) := indentation t
  let (access, t) ← access? t
  let t ← blanks? t
  let (type, t) ← type? t
  let t ← blanks? t
  let (name, t) ← word? t
  let (braceIndent, t) ← newLine? t
  let t ← literal? "\x7b" t
  let (getIndent, t) ← newLine? t
  let t ← literal? "get;" t
  let (setIndent, t) ← newLine? t
  let (method, t) ← setter? t
  let (closeIndent, t) ← newLine? t
  let t ← literal? "\x7d" t
  return (⟨indent, access, type, name, braceIndent, getIndent, setIndent, method, closeIndent⟩, t)

/-! ### What is left is an end of what there was -/

theorem suffix_of_literal? {word : String} {t rest : Text} (h : literal? word t = some rest) :
    rest <:+ t :=
  ⟨word.toList, (behind?_eq_some_iff.1 h).symm⟩

theorem suffix_skipBlanks (t : Text) : skipBlanks t <:+ t :=
  List.dropWhile_suffix _

theorem suffix_of_blanks? {t rest : Text} (h : blanks? t = some rest) : rest <:+ t := by
  match t with
  | [] => simp [blanks?] at h
  | c :: t =>
    by_cases hc : isBlank c <;> simp [blanks?, hc] at h
    exact h ▸ (suffix_skipBlanks t).trans (List.suffix_cons c t)

theorem suffix_of_word? {t run rest : Text} (h : word? t = some (run, rest)) : rest <:+ t := by
  unfold word? at h
  split at h
  · simp at h
  · simp only [Option.some.injEq, Prod.mk.injEq] at h
    exact h.2 ▸ List.dropWhile_suffix _

theorem suffix_of_newLine? {t indent rest : Text} (h : newLine? t = some (indent, rest)) :
    rest <:+ t := by
  unfold newLine? at h
  split at h
  · split at h
    · simp only [Option.some.injEq, Prod.mk.injEq] at h
      exact h.2 ▸ List.dropWhile_suffix _
    · simp at h
  · simp at h

theorem suffix_of_access? {t word rest : Text} (h : access? t = some (word, rest)) :
    rest <:+ t := by
  obtain ⟨w, -, hw⟩ := List.exists_of_findSome?_eq_some h
  obtain ⟨r, hr, heq⟩ := Option.map_eq_some_iff.1 hw
  simp only [Prod.mk.injEq] at heq
  exact heq.2 ▸ suffix_of_literal? hr

theorem suffix_of_typeArguments? {t arguments rest : Text}
    (h : typeArguments? t = some (arguments, rest)) : rest <:+ t := by
  unfold typeArguments? at h
  split at h
  · next inner hinner =>
    split at h
    · next c body r hbody hrest =>
      simp only [Option.some.injEq, Prod.mk.injEq] at h
      have h1 : '>' :: r <:+ inner := hrest ▸ List.dropWhile_suffix _
      have h2 : '<' :: inner <:+ t := hinner ▸ suffix_skipBlanks t
      exact h.2 ▸ ((List.suffix_cons _ _).trans h1).trans ((List.suffix_cons _ _).trans h2)
    · simp at h
  · simp only [Option.some.injEq, Prod.mk.injEq] at h
    exact h.2 ▸ List.suffix_rfl

theorem suffix_arrayBrackets (t : Text) : (arrayBrackets t).2 <:+ t := by
  unfold arrayBrackets
  split
  · next rest hrest => exact suffix_of_literal? hrest
  · exact List.suffix_rfl

theorem suffix_of_type? {t type rest : Text} (h : type? t = some (type, rest)) : rest <:+ t := by
  simp only [type?, bind, Option.bind_eq_some_iff, pure, Option.some.injEq, Prod.mk.injEq] at h
  obtain ⟨⟨w, t1⟩, h1, ⟨a, t2⟩, h2, -, rfl⟩ := h
  exact (suffix_arrayBrackets t2).trans ((suffix_of_typeArguments? h2).trans (suffix_of_word? h1))

theorem suffix_of_setter? {t method rest : Text} (h : setter? t = some (method, rest)) :
    rest <:+ t := by
  simp only [setter?, bind, Option.bind_eq_some_iff, pure, Option.some.injEq, Prod.mk.injEq] at h
  obtain ⟨t1, h1, t2, h2, ⟨m, t3⟩, h3, t4, h4, t5, h5, t6, h6, t7, h7, t8, h8, t9, h9, t10, h10, -,
    rfl⟩ := h
  have step {a b : Text} (h : b <:+ skipBlanks a) : b <:+ a := h.trans (suffix_skipBlanks a)
  exact (step (suffix_of_literal? h10)).trans <| (step (suffix_of_literal? h9)).trans <|
    (step (suffix_of_literal? h8)).trans <| (suffix_of_literal? h7).trans <|
    (suffix_of_blanks? h6).trans <| (step (suffix_of_literal? h5)).trans <|
    (step (suffix_of_literal? h4)).trans <| (step (suffix_of_word? h3)).trans <|
    (step (suffix_of_literal? h2)).trans (suffix_of_literal? h1)

/-- Reading a declaration uses up part of the text. -/
theorem length_lt_of_read? {t rest : Text} {d : Declaration} (h : read? t = some (d, rest)) :
    rest.length < t.length := by
  simp only [read?, bind, Option.bind_eq_some_iff, pure, Option.some.injEq, Prod.mk.injEq] at h
  obtain ⟨⟨access, t1⟩, h1, t2, h2, ⟨type, t3⟩, h3, t4, h4, ⟨name, t5⟩, h5, ⟨brace, t6⟩, h6, t7, h7,
    ⟨get, t8⟩, h8, t9, h9, ⟨set, t10⟩, h10, ⟨method, t11⟩, h11, ⟨close, t12⟩, h12, t13, h13, -,
    rfl⟩ := h
  have hfront : t12 <:+ t :=
    (suffix_of_newLine? h12).trans <| (suffix_of_setter? h11).trans <|
    (suffix_of_newLine? h10).trans <| (suffix_of_literal? h9).trans <|
    (suffix_of_newLine? h8).trans <| (suffix_of_literal? h7).trans <|
    (suffix_of_newLine? h6).trans <| (suffix_of_word? h5).trans <|
    (suffix_of_blanks? h4).trans <| (suffix_of_type? h3).trans <|
    (suffix_of_blanks? h2).trans <| (suffix_of_access? h1).trans (List.dropWhile_suffix _)
  have hbrace : t12 = "\x7d".toList ++ t13 := behind?_eq_some_iff.1 h13
  have hlen := hfront.length_le
  rw [hbrace] at hlen
  simp at hlen
  omega

end Declaration
end BackingField
