import BackingField.Proofs.Expansion.Gaps
import BackingField.Proofs.Text.LowerCase

/-!
# What expanding keeps besides white space

A text is bare when its white space is left out.  The bare text of an occurrence follows from its
declaration in every layout (`Declaration.bare_spelled`), so an occurrence holds nothing but its
declaration and white space.  The same is true of the expanded form (`Declaration.bare_expanded`).
As the gaps around both are the same, expanding loses the word `field` in each occurrence, and
nothing else but white space (`expand_bare`).
-/

namespace BackingField

open Text

namespace Text

/-- A text without its white space. -/
def bare (t : Text) : Text :=
  t.filter fun c => !isBlank c

variable {t : Text}

@[simp] theorem bare_nil : bare [] = [] := rfl

@[simp] theorem bare_append (s t : Text) : bare (s ++ t) = bare s ++ bare t :=
  List.filter_append s t

/-- Nothing is left of white space. -/
theorem bare_blank (h : Only isBlank t) : bare t = [] :=
  List.filter_eq_nil_iff.2 fun c hc => by simp [h c hc]

theorem bare_gap (h : IsGap t) : bare t = [] :=
  bare_blank h.2

theorem bare_indent (h : Only isIndent t) : bare t = [] :=
  bare_blank (h.mono fun _ => isBlank_of_isIndent)

/-- A word is bare already. -/
theorem bare_identifier (h : IsIdentifier t) : bare t = t :=
  List.filter_eq_self.2 fun c hc => by simp [isBlank_eq_false_of_isWord (h.2 c hc)]

/-- So is a fixed text that has no white space. -/
theorem bare_literal {word : String} (h : (word.toList.all fun c => !isBlank c) = true) :
    bare word.toList = word.toList :=
  List.filter_eq_self.2 fun c hc => List.all_eq_true.1 h c hc

theorem bare_lineEnding (ending : LineEnding) : bare ending.text = [] := by
  cases ending with
  | lf => rfl
  | crlf => rfl

/-- Pieces with gaps around them: the first gap, and each of the others behind a piece. -/
def withGaps (first : Text) (pieces gaps : List Text) : Text :=
  first ++ (List.zipWith (· ++ ·) pieces gaps).flatten

theorem withGaps_cons (first piece gap : Text) (pieces gaps : List Text) :
    withGaps first (piece :: pieces) (gap :: gaps) = first ++ piece ++ withGaps gap pieces gaps := by
  simp [withGaps]

theorem bare_withGaps {α : Type} {piece barePiece : α → Text} {found : List α}
    (h : ∀ o ∈ found, bare (piece o) = barePiece o) (first : Text) (gaps : List Text) :
    bare (withGaps first (found.map piece) gaps) =
      withGaps (bare first) (found.map barePiece) (gaps.map bare) := by
  induction found generalizing first gaps with
  | nil => simp [withGaps]
  | cons o found ih =>
    obtain ⟨hfirst, hrest⟩ := List.forall_mem_cons.1 h
    cases gaps with
    | nil => simp [withGaps]
    | cons gap gaps =>
      rw [List.map_cons, List.map_cons, List.map_cons, withGaps_cons, withGaps_cons, bare_append,
        bare_append, hfirst, ih hrest]

/-- Pieces can be taken for parts of them, one by one. -/
theorem withGaps_sublist {α : Type} {piece piece' : α → Text} {found : List α}
    (h : ∀ o ∈ found, (piece o).Sublist (piece' o)) (first : Text) (gaps : List Text) :
    (withGaps first (found.map piece) gaps).Sublist (withGaps first (found.map piece') gaps) := by
  induction found generalizing first gaps with
  | nil => exact List.Sublist.refl _
  | cons o found ih =>
    obtain ⟨hfirst, hrest⟩ := List.forall_mem_cons.1 h
    cases gaps with
    | nil => simp [withGaps]
    | cons gap gaps =>
      rw [List.map_cons, List.map_cons, withGaps_cons, withGaps_cons]
      exact ((List.Sublist.refl first).append hfirst).append (ih hrest gap gaps)

end Text

/-! ### One declaration -/

namespace Declaration

/-- A declaration without white space. -/
def bareText (d : Declaration) : Text :=
  d.access ++ bare d.type ++ d.name ++ "\x7bget;set=>".toList ++ d.method ++
    "(reffield,value);\x7d".toList

/-- A declaration without white space and without the word `field`. -/
def bareTextWithoutField (d : Declaration) : Text :=
  d.access ++ bare d.type ++ d.name ++ "\x7bget;set=>".toList ++ d.method ++
    "(ref,value);\x7d".toList

/-- The expanded form of a declaration without white space. -/
def bareExpanded (d : Declaration) : Text :=
  let field := fieldName d.name
  "private".toList ++ bare d.type ++ field ++ ";".toList ++
    d.access ++ bare d.type ++ d.name ++ "\x7bget=>".toList ++ field ++ ";set=>".toList ++
    d.method ++ "(ref".toList ++ field ++ ",value);\x7d".toList

theorem bare_setter {l : SetterLayout} (h : l.WellFormed) {method : Text}
    (hmethod : IsIdentifier method) :
    bare (l.spelled method) = "set=>".toList ++ method ++ "(reffield,value);".toList := by
  unfold SetterLayout.spelled
  simp (disch := decide) only [bare_append, bare_literal, bare_identifier hmethod,
    bare_blank h.afterSet, bare_blank h.afterArrow, bare_blank h.afterMethod,
    bare_blank h.afterParenthesis, bare_gap h.afterRef, bare_blank h.afterField,
    bare_blank h.afterComma, bare_blank h.afterValue]
  simp

theorem bare_block {d : Declaration} {l : Layout} (hd : d.WellFormed) (hl : l.WellFormed) :
    bare (d.blockSpelled l) =
      "\x7bget;set=>".toList ++ d.method ++ "(reffield,value);\x7d".toList := by
  have hfeed : bare "\n".toList = [] := rfl
  unfold blockSpelled
  simp (disch := decide) only [bare_append, bare_literal, hfeed, bare_setter hl.setter hd.method,
    bare_blank hl.afterName, bare_indent hd.braceIndent, bare_blank hl.afterBrace,
    bare_indent hd.getIndent, bare_blank hl.afterGet, bare_indent hd.setIndent,
    bare_blank hl.afterSetter, bare_indent hd.closeIndent]
  simp

/-- However a declaration is laid out, its bare text is the same. -/
theorem bare_spelled {d : Declaration} {t : Text} (h : d.IsSpelledBy t) : bare t = d.bareText := by
  obtain ⟨l, hd, hl, rfl⟩ := h
  simp only [spelled, bareText, bare_append, bare_block hd hl, bare_indent hd.indent,
    bare_identifier (isIdentifier_of_isAccess hd.access), bare_gap hl.afterAccess,
    bare_gap hl.afterType, bare_identifier hd.name]
  simp

theorem bare_expanded {d : Declaration} (h : d.WellFormed) (ending : LineEnding) :
    bare (d.expanded ending) = d.bareExpanded := by
  have hprivate : bare "private ".toList = "private".toList := by decide
  have hspace : bare " ".toList = [] := by decide
  have hget : bare "get => ".toList = "get=>".toList := by decide
  have hset : bare "set => ".toList = "set=>".toList := by decide
  have href : bare "(ref ".toList = "(ref".toList := by decide
  have hvalue : bare ", value);".toList = ",value);".toList := by decide
  unfold expanded bareExpanded
  simp (disch := decide) only [bare_append, bare_literal, bare_lineEnding, hprivate, hspace, hget,
    hset, href, hvalue, bare_identifier (isIdentifier_of_isAccess h.access),
    bare_identifier h.name, bare_identifier (isIdentifier_fieldName h.name),
    bare_identifier h.method, bare_indent h.indent, bare_indent h.braceIndent,
    bare_indent h.getIndent, bare_indent h.setIndent, bare_indent h.closeIndent]
  simp

/-- The expanded form has all of it but the word `field`. -/
theorem bareTextWithoutField_sublist (d : Declaration) :
    d.bareTextWithoutField.Sublist d.bareExpanded := by
  have hget : "\x7bget;set=>".toList.Sublist
      ("\x7bget=>".toList ++ fieldName d.name ++ ";set=>".toList) := by
    have hwords : "\x7bget;set=>".toList = "\x7bget".toList ++ ";set=>".toList := rfl
    have hopen : "\x7bget".toList.Sublist "\x7bget=>".toList := by decide
    rw [hwords]
    exact (hopen.trans (List.sublist_append_left _ _)).append (List.Sublist.refl _)
  have href : "(ref,value);\x7d".toList.Sublist
      ("(ref".toList ++ fieldName d.name ++ ",value);\x7d".toList) := by
    have hwords : "(ref,value);\x7d".toList = "(ref".toList ++ ",value);\x7d".toList := rfl
    rw [hwords]
    exact (List.sublist_append_left _ _).append (List.Sublist.refl _)
  have hproperty := (((List.Sublist.refl (d.access ++ bare d.type ++ d.name)).append hget).append
    (List.Sublist.refl d.method)).append href
  -- In front of the property only the declaration of its field is new.
  have hexpanded : d.bareExpanded =
      "private".toList ++ bare d.type ++ fieldName d.name ++ ";".toList ++
        (d.access ++ bare d.type ++ d.name ++
          ("\x7bget=>".toList ++ fieldName d.name ++ ";set=>".toList) ++ d.method ++
          ("(ref".toList ++ fieldName d.name ++ ",value);\x7d".toList)) := by
    unfold bareExpanded
    simp only [List.append_assoc]
  rw [hexpanded]
  exact List.sublist_append_of_sublist_right hproperty

end Declaration

/-! ### A whole text -/

/-- Expanding loses nothing of a text but white space and the word `field` in each occurrence.  The
text is the occurrences with gaps around them, and so is the expanded text with the expanded forms.
White space apart, the gaps stay as they are, each occurrence is exactly its access keyword, type,
name and method between the fixed words of a declaration, and each expanded form is made of the same
four and the name of the backing field.  So the bare text without the words `field` is still there,
in the same order. -/
theorem expand_bare (source : Text) :
    ∃ (first : Text) (gaps : List Text) (expanded : Text),
      gaps.length = (Occurrence.find source).length ∧
      expand source = .ok ⟨expanded, (Occurrence.find source).length⟩ ∧
      source = withGaps first ((Occurrence.find source).map Occurrence.text) gaps ∧
      (∀ o ∈ Occurrence.find source, bare o.text = o.declaration.bareText) ∧
      bare source = withGaps (bare first)
        ((Occurrence.find source).map fun o => o.declaration.bareText) (gaps.map bare) ∧
      bare expanded = withGaps (bare first)
        ((Occurrence.find source).map fun o => o.declaration.bareExpanded) (gaps.map bare) ∧
      (withGaps (bare first)
        ((Occurrence.find source).map fun o => o.declaration.bareTextWithoutField)
        (gaps.map bare)).Sublist (bare expanded) := by
  obtain ⟨first, gaps, hlength, hgaps⟩ := Splice.exists_gaps source 0 (Occurrence.find source)
  have hpieces (new : Occurrence → Text) : Splice.onePass source 0
      ((Occurrence.find source).map fun o => ⟨o.start, o.stop, new o⟩) =
        withGaps first ((Occurrence.find source).map new) gaps := by
    rw [hgaps new, withGaps, List.zipWith_map_left]
  have hsource : source = withGaps first ((Occurrence.find source).map Occurrence.text) gaps := by
    rw [← hpieces Occurrence.text, onePass_text]
  have hspelled : ∀ o ∈ Occurrence.find source, o.declaration.IsSpelledBy o.text := by
    intro o ho
    obtain ⟨-, -, -, -, -, -, hspelled⟩ := (Occurrence.leftmostScan_find source).occurs o ho
    exact hspelled
  have hbare : ∀ o ∈ Occurrence.find source, bare o.text = o.declaration.bareText :=
    fun o ho => Declaration.bare_spelled (hspelled o ho)
  have hexpanded : bare (withGaps first ((Occurrence.find source).map Occurrence.expanded) gaps) =
      withGaps (bare first) ((Occurrence.find source).map fun o => o.declaration.bareExpanded)
        (gaps.map bare) :=
    bare_withGaps (fun o ho => Declaration.bare_expanded (hspelled o ho).wellFormed o.lineEnding)
      first gaps
  refine ⟨first, gaps, _, hlength, ?_, hsource, hbare, ?_, hexpanded, ?_⟩
  · rw [← hpieces Occurrence.expanded]
    exact expand_eq_onePass source
  · rw [← bare_withGaps hbare, ← hsource]
  · rw [hexpanded]
    exact withGaps_sublist (fun o _ => o.declaration.bareTextWithoutField_sublist) _ _

end BackingField
