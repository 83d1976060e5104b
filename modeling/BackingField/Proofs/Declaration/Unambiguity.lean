import BackingField.Proofs.Declaration.Reading
import Mathlib.Data.Set.Subsingleton

/-!
# A text is divided in one way

Pieces of a declaration that stand side by side can be made of the same characters.  Blanks in front
of a line feed, the line feed and the indentation behind it are all blank, the gap behind the word of
a type leads to its arguments or to the name, and the arguments may hold what looks like the rest of
a declaration.  `Division` records where each piece ends, the blanks and the parts of the type
included, and says nothing about how that was chosen.  Two divisions of one text agree in every piece
(`divides_subsingleton`).

The reader fixes the parts of the declaration and what is left behind it.  The gaps and the parts of
the type are then fixed from left to right: a run ends where a character of another class stands.
-/

namespace BackingField

open Text

section Gaps

variable {gap gap' word t t' : Text}

/-- A run of blanks ends in front of a given word. -/
theorem gap_append_inj (hgap : Only isBlank gap) (hgap' : Only isBlank gap')
    (hword : ∀ s, Stops isBlank (word ++ s)) (h : gap ++ (word ++ t) = gap' ++ (word ++ t')) :
    gap = gap' ∧ t = t' := by
  obtain ⟨hfront, hrest⟩ := run_append_inj hgap hgap' (hword t) (hword t') h
  exact ⟨hfront, List.append_cancel_left hrest⟩

/-- Blanks, a line feed and indentation are blank as a whole.  The indentation begins behind the last
line feed, so the blanks end in front of it. -/
theorem newLine_append_inj {indent indent' : Text} (hgap : Only isBlank gap)
    (hgap' : Only isBlank gap') (hindent : Only isIndent indent) (hindent' : Only isIndent indent')
    (ht : Stops isBlank t) (ht' : Stops isBlank t')
    (h : gap ++ ("\n".toList ++ (indent ++ t)) = gap' ++ ("\n".toList ++ (indent' ++ t'))) :
    gap = gap' ∧ indent = indent' ∧ t = t' := by
  have hread := Declaration.newLine?_append hgap hindent ht
  rw [h, Declaration.newLine?_append hgap' hindent' ht'] at hread
  obtain ⟨rfl, rfl⟩ : indent' = indent ∧ t' = t := by simpa using hread
  exact ⟨List.append_cancel_right h, rfl, rfl⟩

end Gaps

/-! ### The parts of a type -/

/-- Type arguments that are present: the blanks in front of them, and what the angle brackets hold. -/
@[ext]
structure TypeArguments where
  gap : Text
  body : Text

/-- The parts of a type.  Arguments and array brackets may be missing. -/
@[ext]
structure TypeParts where
  word : Text
  arguments : Option TypeArguments
  brackets : Text

/-- Arguments are not empty, and the first closing bracket is theirs. -/
structure TypeArguments.WellFormed (a : TypeArguments) : Prop where
  gap : Only isBlank a.gap
  body_ne : a.body ≠ []
  angle_not_mem : '>' ∉ a.body

structure TypeParts.WellFormed (p : TypeParts) : Prop where
  word : IsIdentifier p.word
  arguments : ∀ a ∈ p.arguments, a.WellFormed
  brackets : IsArrayBrackets p.brackets

def TypeArguments.spelled (a : TypeArguments) : Text :=
  a.gap ++ "<".toList ++ a.body ++ ">".toList

/-- The parts of a type, put together. -/
def TypeParts.spelled (p : TypeParts) : Text :=
  p.word ++ p.arguments.elim [] TypeArguments.spelled ++ p.brackets

theorem isTypeArguments_iff {t : Text} : IsTypeArguments t ↔
    ∃ a : Option TypeArguments, (∀ b ∈ a, b.WellFormed) ∧ t = a.elim [] TypeArguments.spelled := by
  constructor
  · intro h
    cases h with
    | none => exact ⟨none, by simp, rfl⟩
    | some gap body hgap hne hbody => exact ⟨some ⟨gap, body⟩, by simpa using ⟨hgap, hne, hbody⟩, rfl⟩
  · rintro ⟨a, ha, rfl⟩
    cases a with
    | none => exact .none
    | some a => exact .some a.gap a.body (ha a rfl).gap (ha a rfl).body_ne (ha a rfl).angle_not_mem

/-- The types are the texts that are put together from well-formed parts. -/
theorem isType_iff {t : Text} : IsType t ↔ ∃ p : TypeParts, p.WellFormed ∧ t = p.spelled := by
  constructor
  · rintro ⟨word, arguments, brackets, hword, harguments, hbrackets, rfl⟩
    obtain ⟨a, ha, rfl⟩ := isTypeArguments_iff.1 harguments
    exact ⟨⟨word, a, brackets⟩, ⟨hword, ha, hbrackets⟩, rfl⟩
  · rintro ⟨p, hp, rfl⟩
    exact ⟨_, _, _, hp.word, isTypeArguments_iff.2 ⟨_, hp.arguments, rfl⟩, hp.brackets, rfl⟩

/-- Arguments have an angle bracket, and array brackets have none. -/
theorem TypeArguments.spelled_append_ne (a : TypeArguments) (t : Text) {brackets : Text}
    (hbrackets : IsArrayBrackets brackets) : a.spelled ++ t ≠ brackets := by
  intro heq
  have hmem : '<' ∈ brackets := by
    rw [← heq]
    unfold spelled
    simp
  rcases hbrackets with rfl | rfl
  · simp at hmem
  · simp at hmem

/-- Arguments end at their first closing bracket. -/
theorem TypeArguments.spelled_append_inj {a b : TypeArguments} {t t' : Text} (ha : a.WellFormed)
    (hb : b.WellFormed) (h : a.spelled ++ t = b.spelled ++ t') : a = b ∧ t = t' := by
  have hangle (s : Text) : Stops isBlank ("<".toList ++ s) := by simp; decide
  unfold spelled at h
  simp only [List.append_assoc] at h
  obtain ⟨hgap, hinner⟩ := gap_append_inj ha.gap hb.gap hangle h
  obtain ⟨hbody, hrest⟩ := append_cons_inj ha.angle_not_mem hb.angle_not_mem hinner
  exact ⟨TypeArguments.ext hgap hbody, hrest⟩

/-- Arguments are present on both sides or on none. -/
theorem arguments_append_inj {a b : Option TypeArguments} {brackets brackets' : Text}
    (ha : ∀ x ∈ a, x.WellFormed) (hb : ∀ x ∈ b, x.WellFormed) (hbrackets : IsArrayBrackets brackets)
    (hbrackets' : IsArrayBrackets brackets')
    (h : a.elim [] TypeArguments.spelled ++ brackets = b.elim [] TypeArguments.spelled ++ brackets') :
    a = b ∧ brackets = brackets' := by
  cases a with
  | none =>
    cases b with
    | none => exact ⟨rfl, h⟩
    | some b => exact absurd h.symm (b.spelled_append_ne brackets' hbrackets)
  | some a =>
    cases b with
    | none => exact absurd h (a.spelled_append_ne brackets hbrackets')
    | some b =>
      obtain ⟨rfl, hrest⟩ := TypeArguments.spelled_append_inj (ha a rfl) (hb b rfl) h
      exact ⟨rfl, hrest⟩

/-- A type has one set of parts. -/
theorem TypeParts.spelled_inj {p q : TypeParts} (hp : p.WellFormed) (hq : q.WellFormed)
    (h : p.spelled = q.spelled) : p = q := by
  have hstops {p : TypeParts} (hp : p.WellFormed) :
      Stops isWord (p.arguments.elim [] TypeArguments.spelled ++ p.brackets) := by
    have harguments := isTypeArguments_iff.2 ⟨_, hp.arguments, rfl⟩
    simpa using Declaration.stops_isWord_of_isTypeArguments harguments hp.brackets stops_nil
  unfold spelled at h
  simp only [List.append_assoc] at h
  obtain ⟨hword, hrest⟩ := run_append_inj hp.word.2 hq.word.2 (hstops hp) (hstops hq) h
  obtain ⟨harguments, hbrackets⟩ :=
    arguments_append_inj hp.arguments hq.arguments hp.brackets hq.brackets hrest
  exact TypeParts.ext hword harguments hbrackets

/-! ### The blanks -/

/-- The blanks inside a setter are determined by its text. -/
theorem SetterLayout.spelled_append_inj {l l' : SetterLayout} {method t t' : Text}
    (hl : l.WellFormed) (hl' : l'.WellFormed) (hmethod : IsIdentifier method)
    (h : l.spelled method ++ t = l'.spelled method ++ t') : l = l' ∧ t = t' := by
  have hmethodStop (s : Text) : Stops isBlank (method ++ s) := hmethod.stops_isBlank
  unfold spelled at h
  simp only [List.append_assoc] at h
  have hset := List.append_cancel_left h
  obtain ⟨hafterSet, harrow⟩ :=
    gap_append_inj hl.afterSet hl'.afterSet (fun _ => by simp; decide) hset
  obtain ⟨hafterArrow, hcall⟩ := gap_append_inj hl.afterArrow hl'.afterArrow hmethodStop harrow
  obtain ⟨hafterMethod, hparenthesis⟩ :=
    gap_append_inj hl.afterMethod hl'.afterMethod (fun _ => by simp; decide) hcall
  obtain ⟨hafterParenthesis, href⟩ :=
    gap_append_inj hl.afterParenthesis hl'.afterParenthesis (fun _ => by simp; decide) hparenthesis
  obtain ⟨hafterRef, hfield⟩ :=
    gap_append_inj hl.afterRef.2 hl'.afterRef.2 (fun _ => by simp; decide) href
  obtain ⟨hafterField, hcomma⟩ :=
    gap_append_inj hl.afterField hl'.afterField (fun _ => by simp; decide) hfield
  obtain ⟨hafterComma, hvalue⟩ :=
    gap_append_inj hl.afterComma hl'.afterComma (fun _ => by simp; decide) hcomma
  obtain ⟨hafterValue, hrest⟩ :=
    gap_append_inj hl.afterValue hl'.afterValue (fun _ => by simp; decide) hvalue
  exact ⟨SetterLayout.ext hafterSet hafterArrow hafterMethod hafterParenthesis hafterRef hafterField
    hafterComma hafterValue, hrest⟩

namespace Declaration

/-- A declaration has one layout in a text that it spells. -/
theorem spelled_inj {d : Declaration} {l l' : Layout} (hd : d.WellFormed) (hl : l.WellFormed)
    (hl' : l'.WellFormed) (h : d.spelled l = d.spelled l') : l = l' := by
  have hbraceStop (s : Text) : Stops isBlank ("\x7b".toList ++ s) := by simp; decide
  have hgetStop (s : Text) : Stops isBlank ("get;".toList ++ s) := by simp; decide
  have hcloseStop : Stops isBlank "\x7d".toList := by simp; decide
  unfold spelled blockSpelled at h
  simp only [List.append_assoc] at h
  -- The line with the name.
  have haccess := List.append_cancel_left (List.append_cancel_left h)
  obtain ⟨hafterAccess, htype⟩ := gap_append_inj hl.afterAccess.2 hl'.afterAccess.2
    (stops_isBlank_of_isType hd.type) haccess
  obtain ⟨hafterType, hname⟩ := gap_append_inj hl.afterType.2 hl'.afterType.2
    (fun _ => hd.name.stops_isBlank) htype
  -- The four lines of the block.
  obtain ⟨hafterName, -, hbrace⟩ := newLine_append_inj hl.afterName hl'.afterName hd.braceIndent
    hd.braceIndent (hbraceStop _) (hbraceStop _) hname
  obtain ⟨hafterBrace, -, hget⟩ := newLine_append_inj hl.afterBrace hl'.afterBrace hd.getIndent
    hd.getIndent (hgetStop _) (hgetStop _) (List.append_cancel_left hbrace)
  obtain ⟨hafterGet, -, hset⟩ := newLine_append_inj hl.afterGet hl'.afterGet hd.setIndent
    hd.setIndent (stops_isBlank_setter _ _ _) (stops_isBlank_setter _ _ _)
    (List.append_cancel_left hget)
  obtain ⟨hsetter, hend⟩ :=
    SetterLayout.spelled_append_inj hl.setter hl'.setter hd.method hset
  obtain ⟨hafterSetter, -, -⟩ := newLine_append_inj hl.afterSetter hl'.afterSetter hd.closeIndent
    hd.closeIndent hcloseStop hcloseStop hend
  exact Layout.ext hafterAccess hafterType hafterName hafterBrace hafterGet hsetter hafterSetter

end Declaration

/-! ### The whole text -/

/-- A way to divide a text that begins with a declaration: its nine texts, the parts of the type, the
blanks between them, and what is left. -/
@[ext]
structure Division where
  declaration : Declaration
  type : TypeParts
  layout : Layout
  rest : Text

namespace Division

/-- The part of the text that spells the declaration. -/
def text (p : Division) : Text :=
  p.declaration.spelled p.layout

/-- All pieces belong to their classes, and put together they are the text. -/
structure Divides (p : Division) (t : Text) : Prop where
  declaration : p.declaration.WellFormed
  type : p.type.WellFormed
  type_eq : p.declaration.type = p.type.spelled
  layout : p.layout.WellFormed
  text_eq : t = p.text ++ p.rest

variable {p q : Division} {t : Text}

theorem Divides.isSpelledBy (h : p.Divides t) : p.declaration.IsSpelledBy p.text :=
  ⟨p.layout, h.declaration, h.layout, rfl⟩

/-- A division gives what is read at the beginning of the text. -/
theorem Divides.read? (h : p.Divides t) :
    Declaration.read? t = some (p.declaration, p.rest) :=
  Declaration.read?_eq_some_iff.2 ⟨p.text, h.isSpelledBy, h.text_eq⟩

/-- What spells a declaration can be divided. -/
theorem exists_divides_of_isSpelledBy {d : Declaration} {s : Text} (h : d.IsSpelledBy s)
    (rest : Text) : ∃ p : Division, p.Divides (s ++ rest) ∧ p.declaration = d ∧ p.text = s ∧
      p.rest = rest := by
  obtain ⟨l, hd, hl, rfl⟩ := h
  obtain ⟨type, htype, heq⟩ := isType_iff.1 hd.type
  exact ⟨⟨d, type, l, rest⟩, ⟨hd, htype, heq, hl, rfl⟩, rfl, rfl, rfl⟩

/-- There is at most one division of a text. -/
theorem divides_subsingleton (t : Text) : {p : Division | p.Divides t}.Subsingleton := by
  intro p hp q hq
  change p.Divides t at hp
  change q.Divides t at hq
  have hread := hp.read?
  rw [hq.read?] at hread
  obtain ⟨hdeclaration, hrest⟩ : q.declaration = p.declaration ∧ q.rest = p.rest := by
    simpa using hread
  have htext : p.declaration.spelled p.layout = p.declaration.spelled q.layout := by
    have heq : p.text ++ p.rest = q.text ++ q.rest := hp.text_eq.symm.trans hq.text_eq
    rw [hrest] at heq
    have hspelled := List.append_cancel_right heq
    unfold text at hspelled
    rwa [hdeclaration] at hspelled
  have htype : p.type.spelled = q.type.spelled := by
    rw [← hp.type_eq, ← hq.type_eq, hdeclaration]
  exact Division.ext hdeclaration.symm (TypeParts.spelled_inj hp.type hq.type htype)
    (Declaration.spelled_inj hp.declaration hp.layout hq.layout htext) hrest.symm

end Division
end BackingField
