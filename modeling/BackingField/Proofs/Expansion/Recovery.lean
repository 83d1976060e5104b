import BackingField.Proofs.Declaration.Expanded
import BackingField.Proofs.Occurrence.Scan

/-!
# The expanded form determines the declaration

The parts of an expanded declaration stand side by side without a mark between them, and a type may
contain whatever the other lines are made of.  Read from the left, each part nevertheless ends at one
place: indentation at a character that indents nothing, a word at a character of no word, and a type
at the gap in front of the name.  So all parts of a declaration and its line ending can be recovered
from the expanded form, also when more text follows (`expanded_append_inj`), and two occurrences that
are expanded alike have the same parts, whatever texts they were found in
(`declaration_and_lineEnding_eq_of_expanded_eq`).

The line of the field gives the type and the line ending, and the line of the property gives the name.
The name of the field would not do, as `Count` and `count` have the field `_count` in common.
-/

namespace BackingField

open Text

/-- No line ending is the beginning of the other. -/
theorem LineEnding.text_append_inj {ending ending' : LineEnding} {t t' : Text}
    (h : ending.text ++ t = ending'.text ++ t') : ending = ending' ∧ t = t' := by
  cases ending with
  | lf =>
    cases ending' with
    | lf => exact ⟨rfl, List.append_cancel_left h⟩
    | crlf => simp [text] at h
  | crlf =>
    cases ending' with
    | lf => simp [text] at h
    | crlf => exact ⟨rfl, List.append_cancel_left h⟩

namespace Declaration

variable {d d' : Declaration} {ending ending' : LineEnding} {t t' : Text}

/-- A type ends in one place in front of a gap and a name. -/
theorem type_append_inj {type type' gap gap' name name' : Text} (htype : IsType type)
    (htype' : IsType type') (hgap : IsGap gap) (hgap' : IsGap gap') (hname : IsIdentifier name)
    (hname' : IsIdentifier name') (h : type ++ (gap ++ (name ++ t)) = type' ++ (gap' ++ (name' ++ t'))) :
    type = type' ∧ gap ++ (name ++ t) = gap' ++ (name' ++ t') := by
  have hangle : Stops (· == '<') (name ++ t) := hname.stops_beq (by decide)
  have hangle' : Stops (· == '<') (name' ++ t') := hname'.stops_beq (by decide)
  have hread := type?_append htype hgap hname.stops_isBlank hangle
  rw [h, type?_append htype' hgap' hname'.stops_isBlank hangle'] at hread
  simpa [eq_comm] using hread

/-- Behind the line with the name, the indentation of four lines and the method are recovered. -/
theorem propertyLines_append_inj (hd : d.WellFormed) (hd' : d'.WellFormed) (hname : d.name = d'.name)
    (h : d.propertyLines ending ++ t = d'.propertyLines ending ++ t') :
    d.braceIndent = d'.braceIndent ∧ d.getIndent = d'.getIndent ∧ d.setIndent = d'.setIndent ∧
      d.method = d'.method ∧ d.closeIndent = d'.closeIndent ∧ t = t' := by
  have hbrace (s : Text) : Stops isIndent ("\x7b".toList ++ s) := by simp; decide
  have hget (s : Text) : Stops isIndent ("get => ".toList ++ s) := by simp; decide
  have hset (s : Text) : Stops isIndent ("set => ".toList ++ s) := by simp; decide
  have hparenthesis (s : Text) : Stops isWord ("(ref ".toList ++ s) := by simp; decide
  have hclose (s : Text) : Stops isIndent ("\x7d".toList ++ s) := by simp; decide
  unfold propertyLines at h
  rw [hname] at h
  simp only [List.append_assoc] at h
  have hbraceLine := List.append_cancel_left h
  obtain ⟨hbraceIndent, hafterBrace⟩ :=
    run_append_inj hd.braceIndent hd'.braceIndent (hbrace _) (hbrace _) hbraceLine
  have hgetLine := List.append_cancel_left (List.append_cancel_left hafterBrace)
  obtain ⟨hgetIndent, hafterGet⟩ :=
    run_append_inj hd.getIndent hd'.getIndent (hget _) (hget _) hgetLine
  -- The name of the field and the line ending are the same on both sides.
  have hsetLine := List.append_cancel_left (List.append_cancel_left (List.append_cancel_left
    (List.append_cancel_left hafterGet)))
  obtain ⟨hsetIndent, hafterSet⟩ :=
    run_append_inj hd.setIndent hd'.setIndent (hset _) (hset _) hsetLine
  obtain ⟨hmethod, hafterMethod⟩ := run_append_inj hd.method.2 hd'.method.2 (hparenthesis _)
    (hparenthesis _) (List.append_cancel_left hafterSet)
  have hcloseLine := List.append_cancel_left (List.append_cancel_left (List.append_cancel_left
    (List.append_cancel_left hafterMethod)))
  obtain ⟨hcloseIndent, hafterClose⟩ :=
    run_append_inj hd.closeIndent hd'.closeIndent (hclose _) (hclose _) hcloseLine
  exact ⟨hbraceIndent, hgetIndent, hsetIndent, hmethod, hcloseIndent,
    List.append_cancel_left hafterClose⟩

/-- A text begins with the expanded form of at most one declaration, with one line ending. -/
theorem expanded_append_inj (hd : d.WellFormed) (hd' : d'.WellFormed)
    (h : d.expanded ending ++ t = d'.expanded ending' ++ t') :
    d = d' ∧ ending = ending' ∧ t = t' := by
  have hprivate (s : Text) : Stops isIndent ("private".toList ++ s) := by simp; decide
  have hspace (s : Text) : Stops isWord (" ".toList ++ s) := by simp; decide
  rw [expanded_eq, expanded_eq] at h
  simp only [List.append_assoc] at h
  -- The line of the field.
  obtain ⟨hindent, hfieldLine⟩ := run_append_inj hd.indent hd'.indent (hprivate _) (hprivate _) h
  obtain ⟨htype, hafterType⟩ := type_append_inj hd.type hd'.type isGap_space isGap_space
    (isIdentifier_fieldName hd.name) (isIdentifier_fieldName hd'.name)
    (List.append_cancel_left (List.append_cancel_left hfieldLine))
  obtain ⟨-, hafterField⟩ := run_append_inj (isIdentifier_fieldName hd.name).2
    (isIdentifier_fieldName hd'.name).2 (stops_isWord_semicolon _) (stops_isWord_semicolon _)
    (List.append_cancel_left hafterType)
  obtain ⟨hending, hpropertyLine⟩ :=
    LineEnding.text_append_inj (List.append_cancel_left hafterField)
  -- The line of the property, with the indentation and the type that are known by now.
  rw [hindent, htype, hending] at hpropertyLine
  obtain ⟨haccess, hafterAccess⟩ := run_append_inj (isIdentifier_of_isAccess hd.access).2
    (isIdentifier_of_isAccess hd'.access).2 (hspace _) (hspace _)
    (List.append_cancel_left hpropertyLine)
  obtain ⟨hname, hlines⟩ := run_append_inj hd.name.2 hd'.name.2
    (stops_isWord_propertyLines d ending' t) (stops_isWord_propertyLines d' ending' t')
    (List.append_cancel_left (List.append_cancel_left (List.append_cancel_left hafterAccess)))
  obtain ⟨hbraceIndent, hgetIndent, hsetIndent, hmethod, hcloseIndent, hrest⟩ :=
    propertyLines_append_inj hd hd' hname hlines
  exact ⟨Declaration.ext hindent haccess htype hname hbraceIndent hgetIndent hsetIndent hmethod
    hcloseIndent, hending, hrest⟩

-- The name of the field alone does not tell.
example : fieldName "Count".toList = fieldName "count".toList := by decide +kernel

end Declaration

namespace Occurrence

theorem wellFormed_of_mem_find {t : Text} {o : Occurrence} (ho : o ∈ find t) :
    o.declaration.WellFormed := by
  obtain ⟨-, -, -, -, -, -, hspelled⟩ := (leftmostScan_find t).occurs o ho
  exact hspelled.wellFormed

/-- Two occurrences with one expanded form have the same nine parts and the same line ending. -/
theorem declaration_and_lineEnding_eq_of_expanded_eq {s t : Text} {o p : Occurrence}
    (ho : o ∈ find s) (hp : p ∈ find t) (h : o.expanded = p.expanded) :
    o.declaration = p.declaration ∧ o.lineEnding = p.lineEnding := by
  unfold expanded at h
  have happend : o.declaration.expanded o.lineEnding ++ [] =
      p.declaration.expanded p.lineEnding ++ [] := by rw [h]
  obtain ⟨hdeclaration, hending, -⟩ := Declaration.expanded_append_inj (wellFormed_of_mem_find ho)
    (wellFormed_of_mem_find hp) happend
  exact ⟨hdeclaration, hending⟩

/-- A type over two lines, once with few blanks and once with many. -/
theorem declaration_and_lineEnding_eq_two_layouts :
    let d : Declaration := ⟨"\t".toList, "public".toList, "P<a,\n b>".toList, "Count".toList, [],
      " ".toList, " ".toList, "Set".toList, []⟩
    let s := "\tpublic P<a,\n b> Count\n\x7b\n get;\n set=>Set(ref field,value);\n\x7d".toList
    let t := ("\tpublic\n\tP<a,\n b>  Count \n\n\x7b\n get; \n".toList ++
      " set => Set (ref\n field, value);\n\n\x7d".toList)
    let o : Occurrence := ⟨0, Text.size s, s, d⟩
    let p : Occurrence := ⟨2, 2 + Text.size t, t, d⟩
    (o ∈ find s ∧ p ∈ find ("\n\n".toList ++ t) ∧ o.expanded = p.expanded) ∧
      o.declaration = p.declaration ∧ o.lineEnding = p.lineEnding := by
  intro d s t o p
  have ho : o ∈ find s := by decide +kernel
  have hp : p ∈ find ("\n\n".toList ++ t) := by decide +kernel
  have hexpanded : o.expanded = p.expanded := by decide +kernel
  exact ⟨⟨ho, hp, hexpanded⟩, declaration_and_lineEnding_eq_of_expanded_eq ho hp hexpanded⟩

end Occurrence
end BackingField
