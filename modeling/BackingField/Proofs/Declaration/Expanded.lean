import BackingField.Proofs.Declaration.Openings
import BackingField.Proofs.Text.LowerCase

/-!
# No declaration in an expanded one

Two lines of an expanded declaration open a declaration, the one of the field and the one of the
property.  Behind the name the first goes on with a semicolon and the second with a getter that has
a body, so nothing is read at either (`read?_expanded`).  Nor is anything read at another line start
of the expanded form (`atLines_expanded`), where the type arguments, which are copied into both
lines, are the only difficulty.  A declaration that begins in front of the expanded form ends there
too (`size_le_of_read?_expanded`).
-/

namespace BackingField
namespace Declaration

open Text

variable {t : Text}

/-- What follows the name is not the block of a declaration, whatever stands in front of it. -/
def Blocked (t : Text) : Prop :=
  ∀ indent access type name, readBlock? indent access type name t = none

theorem blocked_of_stops (h : Stops (· == '\x7b') (skipBlanks t)) : Blocked t := by
  intro indent access type name
  unfold readBlock?
  cases hline : newLine? t with
  | none => rfl
  | some line =>
    obtain ⟨braceIndent, rest⟩ := line
    obtain ⟨gap, hgap, hindent, hstop, ht⟩ := newLine?_eq_some_iff.1 hline
    have hskip : skipBlanks t = rest := by
      rw [ht, skipBlanks_gap_append hgap, skipBlanks_gap_append (by simp; decide),
        skipBlanks_append (hindent.mono fun _ => isBlank_of_isIndent) hstop]
    cases hbrace : literal? "\x7b" rest with
    | none => simp [hbrace]
    | some inner =>
      rw [hskip, literal?_eq_some_iff.1 hbrace] at h
      simp at h

/-- A line ending is a run of blanks that ends in its only line feed. -/
theorem exists_text_eq (ending : LineEnding) :
    ∃ gap, Only isBlank gap ∧ '\n' ∉ gap ∧ ending.text = gap ++ "\n".toList := by
  cases ending with
  | lf => exact ⟨[], by simp, by simp, rfl⟩
  | crlf => exact ⟨['\r'], by simp; decide, by simp, rfl⟩

/-- A getter with a body is none. -/
theorem blocked_getter (ending : LineEnding) {braceIndent getIndent : Text}
    (hbrace : Only isIndent braceIndent) (hget : Only isIndent getIndent) (t : Text) :
    Blocked (ending.text ++ (braceIndent ++ ("\x7b".toList ++ (ending.text ++ (getIndent ++
      ("get => ".toList ++ t)))))) := by
  intro indent access type name
  obtain ⟨gap, hgap, -, htext⟩ := exists_text_eq ending
  have hbraceStop (s : Text) : Stops isBlank ("\x7b".toList ++ s) := by simp; decide
  have hgetStop : Stops isBlank ("get => ".toList ++ t) := by simp; decide
  have hgetter : literal? "get;" ("get => ".toList ++ t) = none := by
    simp [literal?, behind?]
  rw [htext]
  simp only [List.append_assoc, readBlock?, bind, newLine?_append hgap hbrace (hbraceStop _),
    newLine?_append hgap hget hgetStop, Option.bind_some, literal?_append, hgetter, Option.bind_none]

/-! ### Declarations that end at a blocked place -/

theorem read?_header_eq_none {indent access gap type gap' name : Text}
    (hindent : Only isIndent indent) (haccess : IsAccess access) (hgap : IsGap gap)
    (htype : IsType type) (hgap' : IsGap gap') (hname : IsIdentifier name) (ht : Stops isWord t)
    (hblocked : Blocked t) :
    read? (indent ++ (access ++ (gap ++ (type ++ (gap' ++ (name ++ t)))))) = none := by
  rw [read?_header_append hindent haccess hgap htype hgap' hname ht]
  exact hblocked indent access type name

theorem not_closes_of_blocked {brackets gap name rest : Text} (hbrackets : IsArrayBrackets brackets)
    (hgap : IsGap gap) (hname : IsIdentifier name) (ht : Stops isWord t) (hblocked : Blocked t) :
    ¬ Closes (brackets ++ (gap ++ (name ++ t))) rest := by
  intro hcloses
  -- Behind the sample the same place would be read, and it is blocked.
  obtain ⟨d, hread⟩ := hcloses.read?
  have hnone := read?_header_eq_none only_nil isAccess_public isGap_space (isType_sample hbrackets)
    hgap hname ht hblocked
  have heq : "public x<x>".toList ++ (brackets ++ (gap ++ (name ++ t))) =
      [] ++ ("public".toList ++ (" ".toList ++ (("x<x>".toList ++ brackets) ++
        (gap ++ (name ++ t))))) := by
    rw [List.append_assoc]
    rfl
  rw [heq, hnone] at hread
  simp at hread

theorem not_calls_of_stops {brackets gap name : Text} (hbrackets : IsArrayBrackets brackets)
    (hgap : IsGap gap) (hname : IsIdentifier name) (ht : Stops isWord t)
    (hparenthesis : Stops (· == '(') (skipBlanks t)) :
    ¬ Calls (brackets ++ (gap ++ (name ++ t))) := by
  rintro ⟨method, t₁, t₂, hword, hliteral⟩
  rcases hbrackets with rfl | rfl
  · rw [List.nil_append, skipBlanks_append hgap.2 hname.stops_isBlank,
      word?_eq_some_iff.2 ⟨hname, ht, rfl⟩] at hword
    obtain ⟨-, rfl⟩ : name = method ∧ t = t₁ := by simpa using hword
    rw [literal?_eq_some_iff.1 hliteral] at hparenthesis
    simp at hparenthesis
  · have hblank (s : Text) : Stops isBlank ("[]".toList ++ s) := by simp; decide
    have hstop (s : Text) : Stops isWord ("[]".toList ++ s) := by simp; decide
    rw [skipBlanks_eq_self (hblank _), word?_eq_none (hstop _)] at hword
    simp at hword

/-- No line inside a type and the name behind it begins a declaration when what follows is neither a
block nor a parenthesis. -/
theorem atLines_type_name {type gap name : Text} (htype : IsType type) (hgap : IsGap gap)
    (hfeed : '\n' ∉ gap) (hname : IsIdentifier name) (ht : Stops isWord t)
    (hparenthesis : Stops (· == '(') (skipBlanks t)) (hblocked : Blocked t) :
    AtLines (fun y => read? y = none) (type ++ (gap ++ name)) t := by
  refine atLines_append.2 ⟨?_, ?_⟩
  · refine atLines_type (fun _ => read?_eq_none_of_not_opens) htype ?_
    intro front body brackets _ hbrackets hfree u v huv _
    have hv : '>' ∉ v := by
      intro hmem
      exact hfree (by rw [huv]; exact List.mem_append_right u hmem)
    have heq : v ++ (">".toList ++ (brackets ++ ((gap ++ name) ++ t))) =
        v ++ '>' :: (brackets ++ (gap ++ (name ++ t))) := by simp
    show read? (v ++ (">".toList ++ (brackets ++ ((gap ++ name) ++ t)))) = none
    rw [heq]
    -- A declaration from here on would close the arguments or take the bracket for an arrow.
    cases hread : read? (v ++ '>' :: (brackets ++ (gap ++ (name ++ t)))) with
    | none => rfl
    | some result =>
      rcases closes_or_calls hv hread with hcloses | hcalls
      · exact absurd hcloses (not_closes_of_blocked hbrackets hgap hname ht hblocked)
      · exact absurd hcalls (not_calls_of_stops hbrackets hgap hname ht hparenthesis)
  · have hfeed' : '\n' ∉ name := hname.2.not_mem (by decide)
    exact atLines_of_not_mem (by simp [hfeed, hfeed'])

/-! ### The expanded form -/

theorem atLines_ending {P : Text → Prop} (ending : LineEnding) (h : P t) :
    AtLines P ending.text t := by
  obtain ⟨gap, -, hfeed, htext⟩ := exists_text_eq ending
  rw [htext]
  refine atLines_solid_append hfeed fun x y hxy hx => ?_
  -- The text in front of the line start is not empty, so it is the line feed.
  have hy : y = [] := by
    cases x with
    | nil => exact absurd rfl hx.ne_nil
    | cons c x => simp at hxy; exact hxy.2.2
  simpa [hy] using h

theorem skipBlanks_ending_append (ending : LineEnding) {indent : Text} (hindent : Only isIndent indent)
    (t : Text) : skipBlanks (ending.text ++ (indent ++ t)) = skipBlanks t := by
  obtain ⟨gap, hgap, -, htext⟩ := exists_text_eq ending
  rw [htext, List.append_assoc, skipBlanks_gap_append hgap, skipBlanks_gap_append (by simp; decide),
    skipBlanks_gap_append (hindent.mono fun _ => isBlank_of_isIndent)]

theorem stops_isWord_ending (ending : LineEnding) (t : Text) : Stops isWord (ending.text ++ t) := by
  cases ending with
  | lf => simp [LineEnding.text]; decide
  | crlf => simp [LineEnding.text]; decide

/-- The lines of an expanded declaration behind the one of the field. -/
def propertyLines (d : Declaration) (ending : LineEnding) : Text :=
  ending.text ++ (d.braceIndent ++ ("\x7b".toList ++ (ending.text ++ (d.getIndent ++
  ("get => ".toList ++ (fieldName d.name ++ (";".toList ++ (ending.text ++ (d.setIndent ++
  ("set => ".toList ++ (d.method ++ ("(ref ".toList ++ (fieldName d.name ++ (", value);".toList ++
  (ending.text ++ (d.closeIndent ++ "\x7d".toList))))))))))))))))

theorem expanded_eq (d : Declaration) (ending : LineEnding) :
    d.expanded ending = d.indent ++ ("private".toList ++ (" ".toList ++
      ((d.type ++ (" ".toList ++ fieldName d.name)) ++ (";".toList ++ (ending.text ++
      (d.indent ++ (d.access ++ (" ".toList ++ ((d.type ++ (" ".toList ++ d.name)) ++
      d.propertyLines ending))))))))) := by
  have hprivate (s : Text) : "private ".toList ++ s = "private".toList ++ (" ".toList ++ s) := rfl
  unfold expanded propertyLines
  simp only [List.append_assoc, hprivate]

section Expanded

variable {d : Declaration}

theorem isAccess_private : IsAccess "private".toList := by
  simp [IsAccess, accessWords]

theorem stops_isWord_semicolon (t : Text) : Stops isWord (";".toList ++ t) := by
  simp; decide

theorem blocked_semicolon (t : Text) : Blocked (";".toList ++ t) := by
  refine blocked_of_stops ?_
  rw [skipBlanks_eq_self (by simp; decide)]
  simp

theorem blocked_propertyLines (hd : d.WellFormed) (ending : LineEnding) (t : Text) :
    Blocked (d.propertyLines ending ++ t) := by
  unfold propertyLines
  simp only [List.append_assoc]
  exact blocked_getter ending hd.braceIndent hd.getIndent _

theorem stops_isWord_propertyLines (d : Declaration) (ending : LineEnding) (t : Text) :
    Stops isWord (d.propertyLines ending ++ t) := by
  unfold propertyLines
  rw [List.append_assoc]
  exact stops_isWord_ending ending _

/-- No declaration is read at the beginning of an expanded one. -/
theorem read?_expanded (hd : d.WellFormed) (ending : LineEnding) (t : Text) :
    read? (d.expanded ending ++ t) = none := by
  rw [expanded_eq]
  simp only [List.append_assoc]
  exact read?_header_eq_none hd.indent isAccess_private isGap_space hd.type isGap_space
    (isIdentifier_fieldName hd.name) (stops_isWord_semicolon _) (blocked_semicolon _)

/-- Behind a line ending, indentation and an inert word open nothing. -/
theorem atLines_ending_inert_append {P : Text → Prop} (hclosed : ∀ y, ¬ Opens y → P y)
    (ending : LineEnding) {indent word s : Text} (hindent : Only isIndent indent)
    (hword : isInert word = true) (h : AtLines P s t) :
    AtLines P (ending.text ++ (indent ++ (word ++ s))) t := by
  obtain ⟨gap, hgap, -, htext⟩ := exists_text_eq ending
  rw [htext, List.append_assoc]
  exact atLines_newLine_inert_append hclosed hgap hindent hword h

theorem atLines_propertyLines {P : Text → Prop} (hclosed : ∀ y, ¬ Opens y → P y)
    (hd : d.WellFormed) (ending : LineEnding) (t : Text) :
    AtLines P (d.propertyLines ending) t := by
  have hfield : '\n' ∉ fieldName d.name := (isIdentifier_fieldName hd.name).2.not_mem (by decide)
  have hmethod : '\n' ∉ d.method := hd.method.2.not_mem (by decide)
  unfold propertyLines
  refine atLines_ending_inert_append hclosed ending hd.braceIndent (by decide) ?_
  refine atLines_ending_inert_append hclosed ending hd.getIndent (by decide) ?_
  refine atLines_solid_append hfield (atLines_solid_append (by simp) ?_)
  refine atLines_ending_inert_append hclosed ending hd.setIndent (by decide) ?_
  refine atLines_solid_append hmethod (atLines_solid_append (by simp) ?_)
  refine atLines_solid_append hfield (atLines_solid_append (by simp) ?_)
  have hend : AtLines P [] t := atLines_of_not_mem (by simp)
  have hclose : isInert "\x7d".toList = true := by decide
  simpa only [List.append_nil] using
    atLines_ending_inert_append hclosed ending hd.closeIndent hclose hend

/-- Nor is one read at a line start inside. -/
theorem atLines_expanded (hd : d.WellFormed) (ending : LineEnding) (t : Text) :
    AtLines (fun y => read? y = none) (d.expanded ending) t := by
  have hindent : '\n' ∉ d.indent := hd.indent.not_mem (by decide)
  have haccess : '\n' ∉ d.access := (isIdentifier_of_isAccess hd.access).2.not_mem (by decide)
  rw [expanded_eq]
  refine atLines_solid_append hindent (atLines_solid_append (by simp) ?_)
  refine atLines_solid_append (by simp) (atLines_append.2 ⟨?_, ?_⟩)
  · -- The type of the field, whose name is followed by a semicolon.
    rw [List.append_assoc]
    refine atLines_type_name hd.type isGap_space (by simp) (isIdentifier_fieldName hd.name)
      (stops_isWord_semicolon _) ?_ (blocked_semicolon _)
    rw [skipBlanks_eq_self (by simp; decide)]
    simp
  refine atLines_solid_append (by simp) (atLines_append.2 ⟨atLines_ending ending ?_, ?_⟩)
  · simp only [List.append_assoc]
    exact read?_header_eq_none hd.indent hd.access isGap_space hd.type isGap_space hd.name
      (stops_isWord_propertyLines d ending t) (blocked_propertyLines hd ending t)
  refine atLines_solid_append hindent (atLines_solid_append haccess ?_)
  refine atLines_solid_append (by simp) (atLines_append.2 ⟨?_, ?_⟩)
  · -- The type of the property, whose name is followed by a brace.
    refine atLines_type_name hd.type isGap_space (by simp) hd.name
      (stops_isWord_propertyLines d ending t) ?_ (blocked_propertyLines hd ending t)
    unfold propertyLines
    simp only [List.append_assoc]
    rw [skipBlanks_ending_append ending hd.braceIndent, skipBlanks_eq_self (by simp; decide)]
    simp
  exact atLines_propertyLines (fun _ => read?_eq_none_of_not_opens) hd ending t

/-- The first closing angle bracket of an expanded declaration closes the type arguments of the field
or belongs to the arrow of the getter.  The name of the field and a semicolon follow both times. -/
theorem exists_expanded_eq_angle (hd : d.WellFormed) (ending : LineEnding) (t : Text) :
    ∃ front brackets t', '>' ∉ front ∧ IsArrayBrackets brackets ∧ d.expanded ending ++ t =
      front ++ '>' :: (brackets ++ (" ".toList ++ (fieldName d.name ++ (";".toList ++ t')))) := by
  obtain ⟨word, arguments, brackets, hword, harguments, hbrackets, htype⟩ := hd.type
  have hindent {indent : Text} (h : Only isIndent indent) : '>' ∉ indent := h.not_mem (by decide)
  have hfree : '>' ∉ word := hword.2.not_mem (by decide)
  rw [expanded_eq, htype]
  cases harguments with
  | some gap body hgap hne hbody =>
    have hgap' : '>' ∉ gap := hgap.not_mem (by decide)
    have hangle (s : Text) : ">".toList ++ s = '>' :: s := rfl
    have hfront : '>' ∉ d.indent ++ ("private".toList ++ (" ".toList ++ (word ++ (gap ++
        ("<".toList ++ body))))) := by
      simp [hindent hd.indent, hfree, hgap', hbody]
    refine ⟨_, brackets, ending.text ++ (d.indent ++ (d.access ++ (" ".toList ++
      ((word ++ (gap ++ "<".toList ++ body ++ ">".toList) ++ brackets) ++ (" ".toList ++ (d.name ++
      (d.propertyLines ending ++ t))))))), hfront, hbrackets, ?_⟩
    simp only [List.append_assoc, hangle, List.cons_append]
  | none =>
    have haccess : '>' ∉ d.access := (isIdentifier_of_isAccess hd.access).2.not_mem (by decide)
    have hname : '>' ∉ d.name := hd.name.2.not_mem (by decide)
    have hfield : '>' ∉ fieldName d.name := (isIdentifier_fieldName hd.name).2.not_mem (by decide)
    have hsquare : '>' ∉ brackets := by
      rcases hbrackets with rfl | rfl
      · simp
      · simp
    have hending : '>' ∉ ending.text := by
      cases ending with
      | lf => simp [LineEnding.text]
      | crlf => simp [LineEnding.text]
    have harrow (s : Text) : "get => ".toList ++ s = "get =".toList ++ '>' :: (" ".toList ++ s) :=
      rfl
    obtain ⟨t', ht'⟩ : ∃ t', d.propertyLines ending ++ t = (ending.text ++ (d.braceIndent ++
        ("\x7b".toList ++ (ending.text ++ (d.getIndent ++ "get =".toList))))) ++
        '>' :: (" ".toList ++ (fieldName d.name ++ (";".toList ++ t'))) := by
      unfold propertyLines
      simp only [List.append_assoc, List.cons_append, harrow]
      exact ⟨_, rfl⟩
    have hfront : '>' ∉ d.indent ++ ("private".toList ++ (" ".toList ++ (word ++ (brackets ++
        (" ".toList ++ (fieldName d.name ++ (";".toList ++ (ending.text ++ (d.indent ++ (d.access ++
        (" ".toList ++ (word ++ (brackets ++ (" ".toList ++ (d.name ++ (ending.text ++
        (d.braceIndent ++ ("\x7b".toList ++ (ending.text ++ (d.getIndent ++
        "get =".toList)))))))))))))))))))) := by
      simp [hindent hd.indent, hfree, hsquare, hfield, hending, haccess, hname,
        hindent hd.braceIndent, hindent hd.getIndent]
    have hnone : IsArrayBrackets [] := .inl rfl
    refine ⟨_, [], t', hfront, hnone, ?_⟩
    simp only [List.append_assoc, List.nil_append] at ht' ⊢
    rw [ht']

/-- A declaration that begins in front of an expanded one ends in front of it. -/
theorem size_le_of_read?_expanded {x rest : Text} {d' : Declaration} (hd : d.WellFormed)
    (ending : LineEnding) (t : Text) (hx : EndsLine x)
    (h : read? (x ++ (d.expanded ending ++ t)) = some (d', rest)) :
    size (d.expanded ending ++ t) ≤ size rest := by
  rcases Nat.lt_or_ge (size rest) (size (d.expanded ending ++ t)) with hlt | hge
  · have hopens : Opens (d.expanded ending ++ t) := by
      rw [expanded_eq]
      simp only [List.append_assoc]
      exact opens_header hd.indent isAccess_private isGap_space hd.type isGap_space
        (isIdentifier_fieldName hd.name) _
    obtain ⟨body, z, hbody, heq, hcloses⟩ := exists_closes_of_opens h hx hlt hopens
    obtain ⟨front, brackets, t', hfront, hbrackets, heq'⟩ := exists_expanded_eq_angle hd ending t
    -- Both brackets are the first one, so the outer declaration goes on with the name of the field.
    obtain ⟨-, hz⟩ := append_cons_inj hbody hfront (heq.symm.trans heq')
    rw [hz] at hcloses
    exact absurd hcloses (not_closes_of_blocked hbrackets isGap_space (isIdentifier_fieldName hd.name)
      (stops_isWord_semicolon t') (blocked_semicolon t'))
  · exact hge

end Expanded
end Declaration
end BackingField
