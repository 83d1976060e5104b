import BackingField.Proofs.Declaration.Reading

/-!
# Where a declaration can begin inside another text

A declaration begins with an access keyword, a word, and then a further word, an angle bracket or a
square bracket (`Opens`).  Inside a spelled declaration that is so at no line start, with one
exception: the type arguments may hold line feeds and anything but a closing angle bracket
(`exists_closes_of_opens`).  A declaration that begins there either closes its own type arguments at
the same bracket or takes the bracket for the arrow of its setter (`closes_or_calls`).  The second is
impossible, so it ends where the outer one ends (`rest_eq_of_read?_inside`).
-/

namespace BackingField
namespace Declaration

open Text

variable {t : Text}

/-- A character that continues a type, or that begins the name behind it. -/
def continuesType (c : Char) : Bool :=
  c == '<' || c == '[' || isWord c

/-- What the text begins with may be the beginning of a declaration. -/
def Opens (t : Text) : Prop :=
  ∃ access t₁ t₂ word t₃, word? (skipBlanks t) = some (access, t₁) ∧ IsAccess access ∧
    blanks? t₁ = some t₂ ∧ word? t₂ = some (word, t₃) ∧ ¬ Stops continuesType (skipBlanks t₃)

/-! ### Texts that open a declaration -/

theorem skipBlanks_gap_append {gap : Text} (hgap : Only isBlank gap) (t : Text) :
    skipBlanks (gap ++ t) = skipBlanks t :=
  List.dropWhile_append_of_pos hgap

theorem skipBlanks_eq_self (ht : Stops isBlank t) : skipBlanks t = t :=
  dropWhile_eq_self_of_stops ht

theorem opens_gap_append {gap : Text} (hgap : Only isBlank gap) :
    Opens (gap ++ t) ↔ Opens t := by
  unfold Opens
  rw [skipBlanks_gap_append hgap]

theorem not_stops_continuesType {arguments brackets gap name : Text}
    (harguments : IsTypeArguments arguments) (hbrackets : IsArrayBrackets brackets)
    (hgap : IsGap gap) (hname : IsIdentifier name) :
    ¬ Stops continuesType (skipBlanks (arguments ++ (brackets ++ (gap ++ (name ++ t))))) := by
  cases harguments with
  | none =>
    rcases hbrackets with rfl | rfl
    · rw [List.nil_append, List.nil_append, skipBlanks_append hgap.2 hname.stops_isBlank]
      obtain ⟨hne, hword⟩ := hname
      cases name with
      | nil => exact absurd rfl hne
      | cons c name => simp [continuesType, (only_cons.1 hword).1]
    · have hstop : Stops isBlank ("[]".toList ++ (gap ++ (name ++ t))) := by simp; decide
      rw [List.nil_append, skipBlanks_eq_self hstop]
      simp [continuesType]
  | some gap' body hgap' hne hbody =>
    simp only [List.append_assoc]
    have hstop (s : Text) : Stops isBlank ("<".toList ++ s) := by simp; decide
    rw [skipBlanks_append hgap' (hstop _)]
    simp [continuesType]

/-- Indentation, access, type and name open a declaration, whatever follows. -/
theorem opens_header {indent access gap type gap' name : Text} (hindent : Only isIndent indent)
    (haccess : IsAccess access) (hgap : IsGap gap) (htype : IsType type) (hgap' : IsGap gap')
    (hname : IsIdentifier name) (t : Text) :
    Opens (indent ++ (access ++ (gap ++ (type ++ (gap' ++ (name ++ t)))))) := by
  obtain ⟨word, arguments, brackets, hword, harguments, hbrackets, rfl⟩ := htype
  rw [opens_gap_append (hindent.mono fun _ => isBlank_of_isIndent)]
  have hidentifier := isIdentifier_of_isAccess haccess
  simp only [List.append_assoc]
  have haccessRead (s : Text) : word? (skipBlanks (access ++ (gap ++ s))) = some (access, gap ++ s) := by
    rw [skipBlanks_eq_self hidentifier.stops_isBlank]
    exact word?_eq_some_iff.2 ⟨hidentifier, hgap.stops_isWord, rfl⟩
  have hgapRead (s : Text) : blanks? (gap ++ (word ++ s)) = some (word ++ s) :=
    blanks?_eq_some_iff.2 ⟨gap, hgap, hword.stops_isBlank, rfl⟩
  have hstop : Stops isWord (arguments ++ (brackets ++ (gap' ++ (name ++ t)))) :=
    stops_isWord_of_isTypeArguments harguments hbrackets hgap'.stops_isWord
  exact ⟨access, _, _, word, _, haccessRead _, haccess, hgapRead _,
    word?_eq_some_iff.2 ⟨hword, hstop, rfl⟩, not_stops_continuesType harguments hbrackets hgap' hname⟩

theorem opens_of_read? {rest : Text} {d : Declaration} (h : read? t = some (d, rest)) : Opens t := by
  obtain ⟨s, ⟨l, hd, hl, rfl⟩, rfl⟩ := read?_eq_some_iff.1 h
  unfold spelled
  simp only [List.append_assoc]
  exact opens_header hd.indent hd.access hl.afterAccess hd.type hl.afterType hd.name _

theorem read?_eq_none_of_not_opens (h : ¬ Opens t) : read? t = none := by
  cases hread : read? t with
  | none => rfl
  | some result => exact absurd (opens_of_read? hread) h

/-! ### Texts that do not -/

theorem word?_eq_none (ht : Stops isWord t) : word? t = none := by
  unfold word?
  rw [takeWhile_eq_nil_of_stops ht]

/-- The access keywords begin with one of two letters. -/
def beginsAccess (c : Char) : Bool :=
  c == 'p' || c == 'i'

theorem not_opens_of_stops (hblank : Stops isBlank t) (haccess : Stops beginsAccess t) :
    ¬ Opens t := by
  rintro ⟨access, t₁, t₂, word, t₃, hread, haccess', -⟩
  rw [skipBlanks_eq_self hblank] at hread
  obtain ⟨-, -, rfl⟩ := word?_eq_some_iff.1 hread
  obtain ⟨keyword, hkeyword, rfl⟩ := List.mem_map.1 haccess'
  simp only [accessWords, List.mem_cons, List.not_mem_nil, or_false] at hkeyword
  rcases hkeyword with rfl | rfl | rfl | rfl
  all_goals simp [beginsAccess] at haccess

/-- A word that opens nothing and stays on its line. -/
def isInert : (word : Text) → Bool
  | [] => false
  | c :: word => !isBlank c && !beginsAccess c && !(c :: word).contains '\n'

theorem not_opens_of_isInert {word : Text} (h : isInert word = true) (t : Text) :
    ¬ Opens (word ++ t) := by
  cases word with
  | nil => simp [isInert] at h
  | cons c word =>
    simp only [isInert, Bool.and_eq_true, Bool.not_eq_true'] at h
    exact not_opens_of_stops (stops_cons.2 h.1.1) (stops_cons.2 h.1.2)

theorem feed_not_mem_of_isInert {word : Text} (h : isInert word = true) : '\n' ∉ word := by
  cases word with
  | nil => simp
  | cons c word =>
    simp only [isInert, Bool.and_eq_true, Bool.not_eq_true'] at h
    simpa using h.2

/-- A single word, with punctuation behind it, opens nothing. -/
theorem not_opens_word_gap {word gap : Text} (hword : IsIdentifier word) (hgap : Only isBlank gap)
    (hblank : Stops isBlank t) (ht : Stops isWord t) : ¬ Opens (word ++ (gap ++ t)) := by
  rintro ⟨access, t₁, t₂, word', t₃, hread, -, hgapRead, hword', -⟩
  have hstop : Stops isWord (gap ++ t) := stops_isWord_append hgap ht
  rw [skipBlanks_eq_self hword.stops_isBlank, word?_eq_some_iff.2 ⟨hword, hstop, rfl⟩] at hread
  obtain ⟨-, rfl⟩ : word = access ∧ gap ++ t = t₁ := by simpa using hread
  obtain ⟨gap', hgap', hstop', heq⟩ := blanks?_eq_some_iff.1 hgapRead
  -- What the reader skips in front of the second word is the gap.
  have hrest : t₂ = t := by
    rw [← skipBlanks_append hgap hblank, heq, skipBlanks_append hgap'.2 hstop']
  rw [hrest, word?_eq_none ht] at hword'
  simp at hword'

/-- Two words open nothing when what follows them cannot belong to a type. -/
theorem not_opens_two_words {word gap word' gap' : Text} (hword : IsIdentifier word)
    (hgap : IsGap gap) (hword' : IsIdentifier word') (hgap' : IsGap gap') (hblank : Stops isBlank t)
    (ht : Stops continuesType t) : ¬ Opens (word ++ (gap ++ (word' ++ (gap' ++ t)))) := by
  rintro ⟨access, t₁, t₂, word'', t₃, hread, -, hgapRead, hwordRead, hcontinues⟩
  rw [skipBlanks_eq_self hword.stops_isBlank,
    word?_eq_some_iff.2 ⟨hword, hgap.stops_isWord, rfl⟩] at hread
  obtain ⟨-, rfl⟩ : word = access ∧ gap ++ (word' ++ (gap' ++ t)) = t₁ := by simpa using hread
  rw [blanks?_eq_some_iff.2 ⟨gap, hgap, hword'.stops_isBlank, rfl⟩] at hgapRead
  obtain rfl : word' ++ (gap' ++ t) = t₂ := by simpa using hgapRead
  rw [word?_eq_some_iff.2 ⟨hword', hgap'.stops_isWord, rfl⟩] at hwordRead
  obtain ⟨-, rfl⟩ : word' = word'' ∧ gap' ++ t = t₃ := by simpa using hwordRead
  rw [skipBlanks_append hgap'.2 hblank] at hcontinues
  exact hcontinues ht

/-! ### The line starts of a spelled declaration -/

section LineStarts

variable {P : Text → Prop} {s : Text}

theorem atLines_solid_append (hs : '\n' ∉ s) {s' : Text} (h : AtLines P s' t) :
    AtLines P (s ++ s') t :=
  atLines_append.2 ⟨atLines_of_not_mem hs, h⟩

theorem atLines_gap_append (hclosed : ∀ y, ¬ Opens y → P y) {gap : Text} (hgap : Only isBlank gap)
    (hs : ¬ Opens (s ++ t)) (h : AtLines P s t) : AtLines P (gap ++ s) t := by
  refine atLines_append.2 ⟨atLines_of_only_isBlank hgap fun gap' hgap' => ?_, h⟩
  apply hclosed
  rw [opens_gap_append hgap']
  exact hs

theorem atLines_newLine_append (hclosed : ∀ y, ¬ Opens y → P y) {gap indent : Text}
    (hgap : Only isBlank gap) (hindent : Only isIndent indent) (hs : ¬ Opens (s ++ t))
    (h : AtLines P s t) : AtLines P (gap ++ ("\n".toList ++ (indent ++ s))) t := by
  have hline := atLines_gap_append hclosed (isGap_newLine hgap hindent).2 hs h
  simpa using hline

/-- Nothing opens a declaration in a gap and an inert word behind it. -/
theorem atLines_gap_inert_append (hclosed : ∀ y, ¬ Opens y → P y) {gap word : Text}
    (hgap : Only isBlank gap) (hword : isInert word = true) (h : AtLines P s t) :
    AtLines P (gap ++ (word ++ s)) t := by
  refine atLines_gap_append hclosed hgap ?_ (atLines_solid_append (feed_not_mem_of_isInert hword) h)
  rw [List.append_assoc]
  exact not_opens_of_isInert hword (s ++ t)

theorem atLines_newLine_inert_append (hclosed : ∀ y, ¬ Opens y → P y) {gap indent word : Text}
    (hgap : Only isBlank gap) (hindent : Only isIndent indent) (hword : isInert word = true)
    (h : AtLines P s t) : AtLines P (gap ++ ("\n".toList ++ (indent ++ (word ++ s)))) t := by
  have hline := atLines_gap_inert_append hclosed (isGap_newLine hgap hindent).2 hword h
  simpa using hline

theorem atLines_setter (hclosed : ∀ y, ¬ Opens y → P y) {l : SetterLayout} (hl : l.WellFormed)
    {method : Text} (hmethod : IsIdentifier method) (h : AtLines P s t) :
    AtLines P ("set".toList ++ (l.afterSet ++ ("=>".toList ++ (l.afterArrow ++ (method ++
      (l.afterMethod ++ ("(".toList ++ (l.afterParenthesis ++ ("ref".toList ++ (l.afterRef ++
      ("field".toList ++ (l.afterField ++ (",".toList ++ (l.afterComma ++ ("value".toList ++
      (l.afterValue ++ (");".toList ++ s))))))))))))))))) t := by
  have hfeed : '\n' ∉ method := hmethod.2.not_mem (by decide)
  refine atLines_solid_append (by simp) ?_
  refine atLines_gap_inert_append hclosed hl.afterSet (by decide) ?_
  -- The method may be any word, an access keyword too, but a parenthesis follows it.
  refine atLines_gap_append hclosed hl.afterArrow ?_ (atLines_solid_append hfeed ?_)
  · simp only [List.append_assoc]
    exact not_opens_word_gap hmethod hl.afterMethod (by simp; decide) (by simp; decide)
  refine atLines_gap_inert_append hclosed hl.afterMethod (by decide) ?_
  refine atLines_gap_inert_append hclosed hl.afterParenthesis (by decide) ?_
  refine atLines_gap_inert_append hclosed hl.afterRef.2 (by decide) ?_
  refine atLines_gap_inert_append hclosed hl.afterField (by decide) ?_
  refine atLines_gap_inert_append hclosed hl.afterComma (by decide) ?_
  exact atLines_gap_inert_append hclosed hl.afterValue (by decide) h

theorem atLines_block (hclosed : ∀ y, ¬ Opens y → P y) {d : Declaration} {l : Layout}
    (hd : d.WellFormed) (hl : l.WellFormed) (t : Text) : AtLines P (d.blockSpelled l) t := by
  unfold blockSpelled SetterLayout.spelled
  simp only [List.append_assoc]
  refine atLines_newLine_inert_append hclosed hl.afterName hd.braceIndent (by decide) ?_
  refine atLines_newLine_inert_append hclosed hl.afterBrace hd.getIndent (by decide) ?_
  refine atLines_newLine_append hclosed hl.afterGet hd.setIndent ?_ ?_
  · rw [List.append_assoc]
    exact not_opens_of_isInert (by decide) _
  refine atLines_setter hclosed hl.setter hd.method ?_
  refine atLines_newLine_append hclosed hl.afterSetter hd.closeIndent ?_ ?_
  · exact not_opens_of_isInert (by decide) t
  exact atLines_of_not_mem (by simp)

/-- A type and the name behind it open nothing, because the access keyword is missing. -/
theorem not_opens_type {type gap name gap' : Text} (htype : IsType type) (hgap : IsGap gap)
    (hname : IsIdentifier name) (hgap' : IsGap gap') (hblank : Stops isBlank t)
    (ht : Stops continuesType t) : ¬ Opens (type ++ (gap ++ (name ++ (gap' ++ t)))) := by
  obtain ⟨word, arguments, brackets, hword, harguments, hbrackets, rfl⟩ := htype
  simp only [List.append_assoc]
  cases harguments with
  | none =>
    rcases hbrackets with rfl | rfl
    · rw [List.nil_append, List.nil_append]
      exact not_opens_two_words hword hgap hname hgap' hblank ht
    · have hstop (s : Text) : ¬ Opens (word ++ ([] ++ ("[]".toList ++ s))) :=
        not_opens_word_gap hword only_nil (by simp; decide) (by simp; decide)
      exact hstop _
  | some gap₁ body hgap₁ hne hbody =>
    simp only [List.append_assoc]
    exact not_opens_word_gap hword hgap₁ (by simp; decide) (by simp; decide)

theorem atLines_type (hclosed : ∀ y, ¬ Opens y → P y) {type : Text} (htype : IsType type)
    (hbody : ∀ front body brackets, type = front ++ ("<".toList ++ (body ++ (">".toList ++ brackets))) →
      IsArrayBrackets brackets → '>' ∉ body → AtLines P body (">".toList ++ (brackets ++ t))) :
    AtLines P type t := by
  obtain ⟨word, arguments, brackets, hword, harguments, hbrackets, rfl⟩ := htype
  have hfeed : '\n' ∉ word := hword.2.not_mem (by decide)
  have hsquare : '\n' ∉ brackets := by
    rcases hbrackets with rfl | rfl
    · simp
    · simp
  cases harguments with
  | none => exact atLines_of_not_mem (by simp [hfeed, hsquare])
  | some gap body hgap hne hfree =>
    have hinner := hbody (word ++ gap) body brackets (by simp only [List.append_assoc]) hbrackets hfree
    simp only [List.append_assoc]
    refine atLines_solid_append hfeed (atLines_gap_inert_append hclosed hgap (by decide) ?_)
    refine atLines_append.2 ⟨?_, ?_⟩
    · simpa only [List.append_assoc] using hinner
    · exact atLines_solid_append (by simp) (atLines_of_not_mem hsquare)

/-- Only inside the type arguments can a line of a spelled declaration open another one. -/
theorem atLines_spelled (hclosed : ∀ y, ¬ Opens y → P y) {d : Declaration} {l : Layout}
    (hd : d.WellFormed) (hl : l.WellFormed)
    (hbody : ∀ front body brackets,
      d.type = front ++ ("<".toList ++ (body ++ (">".toList ++ brackets))) →
      IsArrayBrackets brackets → '>' ∉ body →
      AtLines P body (">".toList ++ (brackets ++
        (l.afterType ++ (d.name ++ (d.blockSpelled l ++ t)))))) :
    AtLines P (d.spelled l) t := by
  have hindent : '\n' ∉ d.indent := hd.indent.not_mem (by decide)
  have haccess : '\n' ∉ d.access := (isIdentifier_of_isAccess hd.access).2.not_mem (by decide)
  have hname : '\n' ∉ d.name := hd.name.2.not_mem (by decide)
  obtain ⟨gap, inner, hgap, hblock⟩ := exists_block_eq hd hl
  unfold spelled
  simp only [List.append_assoc]
  -- A line can start in one of the two gaps of the header, in the type and in the block.
  refine atLines_solid_append hindent (atLines_solid_append haccess ?_)
  refine atLines_gap_append hclosed hl.afterAccess.2 ?_ (atLines_append.2 ⟨?_, ?_⟩)
  · rw [hblock]
    simp only [List.append_assoc _ _ t]
    exact not_opens_type hd.type hl.afterType hd.name hgap (by simp; decide) (by simp; decide)
  · refine atLines_type hclosed hd.type fun front body brackets htype hbrackets hfree => ?_
    simpa only [List.append_assoc] using hbody front body brackets htype hbrackets hfree
  refine atLines_gap_append hclosed hl.afterType.2 ?_ (atLines_solid_append hname ?_)
  · rw [hblock]
    simp only [List.append_assoc _ _ t]
    exact not_opens_word_gap hd.name hgap.2 (by simp; decide) (by simp; decide)
  exact atLines_block hclosed hd hl t

end LineStarts

/-! ### Type arguments that hold the beginning of another declaration -/

/-- The text goes on behind the type arguments of some declaration that ends in front of `rest`. -/
def Closes (t rest : Text) : Prop :=
  ∃ (d : Declaration) (l : Layout) (brackets : Text), d.WellFormed ∧ l.WellFormed ∧
    IsArrayBrackets brackets ∧
    t = brackets ++ (l.afterType ++ (d.name ++ (d.blockSpelled l ++ rest)))

/-- The text goes on behind the arrow of some setter. -/
def Calls (t : Text) : Prop :=
  ∃ method t₁ t₂, word? (skipBlanks t) = some (method, t₁) ∧ literal? "(" (skipBlanks t₁) = some t₂

theorem isAccess_public : IsAccess "public".toList := by
  simp [IsAccess, accessWords]

theorem isType_sample {brackets : Text} (hbrackets : IsArrayBrackets brackets) :
    IsType ("x<x>".toList ++ brackets) := by
  have hx : IsIdentifier "x".toList := ⟨by simp, by simp; decide⟩
  exact ⟨"x".toList, "<x>".toList, brackets, hx,
    .some [] "x".toList only_nil (by simp) (by simp), hbrackets, rfl⟩

/-- A text that closes type arguments makes a declaration behind any that are open. -/
theorem Closes.read? {rest : Text} (h : Closes t rest) :
    ∃ d, read? ("public x<x>".toList ++ t) = some (d, rest) := by
  obtain ⟨d, l, brackets, hd, hl, hbrackets, rfl⟩ := h
  have htype := isType_sample hbrackets
  -- A declaration with the shortest header that has type arguments, and with the same block.
  let d' := { d with indent := [], access := "public".toList, type := "x<x>".toList ++ brackets }
  let l' := { l with afterAccess := " ".toList }
  have hd' : d'.WellFormed :=
    ⟨only_nil, isAccess_public, htype, hd.name, hd.braceIndent, hd.getIndent,
      hd.setIndent, hd.method, hd.closeIndent⟩
  have hl' : l'.WellFormed :=
    ⟨isGap_space, hl.afterType, hl.afterName, hl.afterBrace, hl.afterGet,
      hl.setter, hl.afterSetter⟩
  have hblock : d'.blockSpelled l' = d.blockSpelled l := rfl
  refine ⟨d', read?_eq_some_iff.2 ⟨d'.spelled l', ⟨l', hd', hl', rfl⟩, ?_⟩⟩
  unfold spelled
  rw [hblock]
  simp [d', l']

/-- It is settled where such a declaration ends. -/
theorem Closes.unique {rest rest' : Text} (h : Closes t rest) (h' : Closes t rest') :
    rest = rest' := by
  obtain ⟨d, hread⟩ := h.read?
  obtain ⟨d', hread'⟩ := h'.read?
  rw [hread] at hread'
  obtain ⟨-, heq⟩ : d = d' ∧ rest = rest' := by simpa using hread'
  exact heq

/-- What follows an arrow cannot close type arguments: the one goes on with a parenthesis behind the
word, the other with a brace. -/
theorem Calls.not_closes {rest : Text} (h : Calls t) : ¬ Closes t rest := by
  rintro ⟨d, l, brackets, hd, hl, hbrackets, ht⟩
  obtain ⟨method, t₁, t₂, hword, hparenthesis⟩ := h
  rcases hbrackets with rfl | rfl
  · have hskip : skipBlanks t = d.name ++ (d.blockSpelled l ++ rest) := by
      rw [ht, List.nil_append, skipBlanks_append hl.afterType.2 hd.name.stops_isBlank]
    rw [hskip, word?_eq_some_iff.2 ⟨hd.name, stops_isWord_block hd hl rest, rfl⟩] at hword
    obtain ⟨-, rfl⟩ : d.name = method ∧ d.blockSpelled l ++ rest = t₁ := by simpa using hword
    obtain ⟨gap, inner, hgap, hblock⟩ := exists_block_eq hd hl
    rw [hblock, List.append_assoc, List.append_assoc,
      skipBlanks_append hgap.2 (by simp; decide)] at hparenthesis
    have hbrace := literal?_eq_some_iff.1 hparenthesis
    simp at hbrace
  · have hskip : skipBlanks t = t := by
      rw [ht]
      exact skipBlanks_eq_self (by simp; decide)
    have hstop : Stops isWord t := by
      rw [ht]
      simp; decide
    rw [hskip, word?_eq_none hstop] at hword
    simp at hword

/-- A block holds the arrow of its setter, and no closing angle bracket in front of that. -/
theorem exists_block_eq_arrow {d : Declaration} {l : Layout} (hd : d.WellFormed)
    (hl : l.WellFormed) (t : Text) :
    ∃ front z, '>' ∉ front ∧ d.blockSpelled l ++ t = front ++ '>' :: z ∧ Calls z := by
  have hfree {gap : Text} (hgap : Only isBlank gap) : '>' ∉ gap := hgap.not_mem (by decide)
  have hfree' {indent : Text} (hindent : Only isIndent indent) : '>' ∉ indent :=
    hindent.not_mem (by decide)
  have hmethod (s : Text) : Stops isWord (l.setter.afterMethod ++ ("(".toList ++ s)) :=
    stops_isWord_append hl.setter.afterMethod (by simp; decide)
  have hcalls (s : Text) : Calls (l.setter.afterArrow ++ (d.method ++ (l.setter.afterMethod ++
      ("(".toList ++ s)))) := by
    refine ⟨d.method, _, s, ?_, literal?_skipBlanks hl.setter.afterMethod (by simp; decide)⟩
    rw [skipBlanks_append hl.setter.afterArrow hd.method.stops_isBlank]
    exact word?_eq_some_iff.2 ⟨hd.method, hmethod s, rfl⟩
  have harrow (s : Text) : "=>".toList ++ s = "=".toList ++ ('>' :: s) := rfl
  obtain ⟨s, hs⟩ : ∃ s, d.blockSpelled l ++ t = (l.afterName ++ ("\n".toList ++ (d.braceIndent ++
      ("\x7b".toList ++ (l.afterBrace ++ ("\n".toList ++ (d.getIndent ++ ("get;".toList ++
      (l.afterGet ++ ("\n".toList ++ (d.setIndent ++ ("set".toList ++ (l.setter.afterSet ++
      "=".toList))))))))))))) ++ '>' :: (l.setter.afterArrow ++ (d.method ++
      (l.setter.afterMethod ++ ("(".toList ++ s)))) := by
    unfold blockSpelled SetterLayout.spelled
    simp only [List.append_assoc, harrow]
    exact ⟨_, rfl⟩
  refine ⟨_, _, ?_, hs, hcalls s⟩
  simp [hfree hl.afterName, hfree' hd.braceIndent, hfree hl.afterBrace, hfree' hd.getIndent,
    hfree hl.afterGet, hfree' hd.setIndent, hfree hl.setter.afterSet]

/-- The first closing angle bracket of a declaration closes its type arguments or belongs to the
arrow of its setter. -/
theorem closes_or_calls {body z rest : Text} {d : Declaration} (hbody : '>' ∉ body)
    (h : read? (body ++ '>' :: z) = some (d, rest)) : Closes z rest ∨ Calls z := by
  obtain ⟨s, ⟨l, hd, hl, hs⟩, ht⟩ := read?_eq_some_iff.1 h
  unfold spelled at hs
  obtain ⟨word, arguments, brackets, hword, harguments, hbrackets, htype⟩ := hd.type
  have hindent : '>' ∉ d.indent := hd.indent.not_mem (by decide)
  have haccess : '>' ∉ d.access := (isIdentifier_of_isAccess hd.access).2.not_mem (by decide)
  have hgap : '>' ∉ l.afterAccess := hl.afterAccess.2.not_mem (by decide)
  have hfree : '>' ∉ word := hword.2.not_mem (by decide)
  have hgap' : '>' ∉ l.afterType := hl.afterType.2.not_mem (by decide)
  have hname : '>' ∉ d.name := hd.name.2.not_mem (by decide)
  rw [hs, htype] at ht
  simp only [List.append_assoc] at ht
  -- Nothing in front of the type arguments holds a closing bracket, nor does anything in front of
  -- the arrow when there are none.
  cases harguments with
  | some gap₁ body' hgap₁ hne hbody' =>
    refine .inl ⟨d, l, brackets, hd, hl, hbrackets, ?_⟩
    have hfree₁ : '>' ∉ gap₁ := hgap₁.not_mem (by decide)
    have hfront : '>' ∉ d.indent ++ (d.access ++ (l.afterAccess ++ (word ++ (gap₁ ++
        ("<".toList ++ body'))))) := by
      simp [hindent, haccess, hgap, hfree, hfree₁, hbody']
    refine (append_cons_inj hbody hfront ?_).2
    rw [ht]
    simp
  | none =>
    obtain ⟨front, z', hfree', hblock, hcalls⟩ := exists_block_eq_arrow hd hl rest
    have hsquare : '>' ∉ brackets := by
      rcases hbrackets with rfl | rfl
      · simp
      · simp
    have hfront : '>' ∉ d.indent ++ (d.access ++ (l.afterAccess ++ (word ++ (brackets ++
        (l.afterType ++ (d.name ++ front)))))) := by
      simp [hindent, haccess, hgap, hfree, hsquare, hgap', hname, hfree']
    rw [hblock] at ht
    have hz : z = z' := (append_cons_inj hbody hfront (by rw [ht]; simp)).2
    rw [hz]
    exact .inr hcalls

/-- A line inside a declaration that opens another one stands in the type arguments. -/
theorem exists_closes_of_opens {x y rest : Text} {d : Declaration}
    (h : read? (x ++ y) = some (d, rest)) (hx : EndsLine x) (hrest : size rest < size y)
    (hopens : Opens y) : ∃ body z, '>' ∉ body ∧ y = body ++ '>' :: z ∧ Closes z rest := by
  obtain ⟨s, ⟨l, hd, hl, hs⟩, ht⟩ := read?_eq_some_iff.1 h
  obtain ⟨m, hm, hy⟩ : ∃ m, s = x ++ m ∧ y = m ++ rest := by
    rcases List.append_eq_append_iff.1 ht with ⟨m, hm, hy⟩ | ⟨m, hm, hy⟩
    · exact ⟨m, hm, hy⟩
    · have hsize := congrArg size hy
      rw [size_append] at hsize
      omega
  -- The property of the rest that every line start of the spelled declaration has.
  let P (y : Text) : Prop := Opens y → ∃ body z, '>' ∉ body ∧ y = body ++ '>' :: z ∧ Closes z rest
  have hlines : AtLines P (d.spelled l) rest := by
    refine atLines_spelled (fun y hy hopens => absurd hopens hy) hd hl ?_
    intro front body brackets _ hbrackets hfree u v huv _ _
    refine ⟨v, _, ?_, by simp, d, l, brackets, hd, hl, hbrackets, rfl⟩
    intro hmem
    exact hfree (by rw [huv]; exact List.mem_append_right u hmem)
  rw [hy] at hopens ⊢
  exact hlines x m (by rw [← hs, hm]) hx hopens

/-- Of two declarations of which one begins inside the other, both end at one place. -/
theorem rest_eq_of_read?_inside {x y rest rest' : Text} {d d' : Declaration}
    (h : read? (x ++ y) = some (d, rest)) (hx : EndsLine x) (hrest : size rest < size y)
    (h' : read? y = some (d', rest')) : rest' = rest := by
  obtain ⟨body, z, hbody, rfl, hcloses⟩ := exists_closes_of_opens h hx hrest (opens_of_read? h')
  rcases closes_or_calls hbody h' with hcloses' | hcalls
  · exact hcloses'.unique hcloses
  · exact absurd hcloses hcalls.not_closes

end Declaration
end BackingField
