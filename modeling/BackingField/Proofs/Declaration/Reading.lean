import BackingField.Proofs.Declaration.Spelling
import BackingField.Proofs.Text.LineStarts

/-!
# Reading is the inverse of spelling

`Declaration.read?` finds a declaration at the beginning of a text exactly when the text begins with
a spelling of it (`read?_eq_some_iff`).  In particular there is at most one way to read a text.

Each part of the reader has its own equivalence.  From left to right it says what was read, and from
right to left that a run which ends where the next part begins is read as a whole.
-/

namespace BackingField
namespace Declaration

open Text

variable {t rest : Text}

theorem literal?_eq_some_iff {word : String} :
    literal? word t = some rest ↔ t = word.toList ++ rest :=
  behind?_eq_some_iff

@[simp] theorem literal?_append (word : String) (t : Text) :
    literal? word (word.toList ++ t) = some t :=
  literal?_eq_some_iff.2 rfl

/-! ### Blanks and words -/

theorem skipBlanks_append {gap : Text} (hgap : Only isBlank gap) (ht : Stops isBlank t) :
    skipBlanks (gap ++ t) = t :=
  dropWhile_run_append hgap ht

theorem exists_eq_append_skipBlanks (t : Text) :
    ∃ gap, Only isBlank gap ∧ t = gap ++ skipBlanks t :=
  ⟨t.takeWhile isBlank, only_takeWhile isBlank t, List.takeWhile_append_dropWhile.symm⟩

theorem blanks?_eq_some_iff :
    blanks? t = some rest ↔ ∃ gap, IsGap gap ∧ Stops isBlank rest ∧ t = gap ++ rest := by
  constructor
  · intro h
    cases t with
    | nil => simp [blanks?] at h
    | cons c t =>
      by_cases hc : isBlank c = true
      · obtain ⟨gap, hgap, heq⟩ := exists_eq_append_skipBlanks t
        have hrest : skipBlanks t = rest := by simpa [blanks?, hc] using h
        rw [hrest] at heq
        refine ⟨c :: gap, ⟨by simp, by simp [hc, hgap]⟩, ?_, by rw [heq]; rfl⟩
        rw [← hrest]
        exact stops_dropWhile isBlank t
      · simp [blanks?, hc] at h
  · rintro ⟨gap, ⟨hne, hgap⟩, hstop, rfl⟩
    cases gap with
    | nil => exact absurd rfl hne
    | cons c gap =>
      rw [only_cons] at hgap
      simp [blanks?, hgap.1, skipBlanks_append hgap.2 hstop]

theorem word?_eq_some_iff {word : Text} :
    word? t = some (word, rest) ↔ IsIdentifier word ∧ Stops isWord rest ∧ t = word ++ rest := by
  constructor
  · intro h
    unfold word? at h
    split at h
    · simp at h
    · next c run hrun =>
      obtain ⟨rfl, rfl⟩ : c :: run = word ∧ t.dropWhile isWord = rest := by simpa using h
      refine ⟨⟨by simp, ?_⟩, stops_dropWhile isWord t, ?_⟩
      · rw [← hrun]
        exact only_takeWhile isWord t
      · rw [← hrun, List.takeWhile_append_dropWhile]
  · rintro ⟨⟨hne, hword⟩, hstop, rfl⟩
    unfold word?
    rw [takeWhile_run_append hword hstop, dropWhile_run_append hword hstop]
    cases word with
    | nil => exact absurd rfl hne
    | cons c run => rfl

theorem indentation_eq_iff {indent : Text} :
    indentation t = (indent, rest) ↔
      Only isIndent indent ∧ Stops isIndent rest ∧ t = indent ++ rest := by
  constructor
  · intro h
    obtain ⟨rfl, rfl⟩ : t.takeWhile isIndent = indent ∧ t.dropWhile isIndent = rest := by
      simpa [indentation] using h
    exact ⟨only_takeWhile isIndent t, stops_dropWhile isIndent t,
      List.takeWhile_append_dropWhile.symm⟩
  · rintro ⟨hindent, hstop, rfl⟩
    simp [indentation, takeWhile_run_append hindent hstop, dropWhile_run_append hindent hstop]

/-! ### Line ends -/

theorem afterLastFeed?_eq_none (h : '\n' ∉ t) : afterLastFeed? t = none := by
  induction t with
  | nil => rfl
  | cons c t ih =>
    simp only [List.mem_cons, not_or] at h
    simp [afterLastFeed?, ih h.2, Ne.symm h.1]

theorem afterLastFeed?_append (s : Text) (h : '\n' ∉ rest) :
    afterLastFeed? (s ++ '\n' :: rest) = some rest := by
  induction s with
  | nil => simp [afterLastFeed?, afterLastFeed?_eq_none h]
  | cons c s ih => simp [afterLastFeed?, ih]

theorem exists_eq_append_of_afterLastFeed? (h : afterLastFeed? t = some rest) :
    ∃ s, t = s ++ '\n' :: rest := by
  induction t with
  | nil => simp [afterLastFeed?] at h
  | cons c t ih =>
    cases hlater : afterLastFeed? t with
    | some later =>
      obtain rfl : later = rest := by simpa [afterLastFeed?, hlater] using h
      obtain ⟨s, rfl⟩ := ih hlater
      exact ⟨c :: s, rfl⟩
    | none =>
      obtain ⟨rfl, rfl⟩ : c = '\n' ∧ t = rest := by simpa [afterLastFeed?, hlater] using h
      exact ⟨[], rfl⟩

/-- Blanks that end in a line feed, followed by indentation, are read as such when the next character
is no blank. -/
theorem newLine?_eq_some_iff {indent : Text} :
    newLine? t = some (indent, rest) ↔
      ∃ gap, Only isBlank gap ∧ Only isIndent indent ∧ Stops isBlank rest ∧
        t = gap ++ ("\n".toList ++ (indent ++ rest)) := by
  constructor
  · intro h
    unfold newLine? at h
    split at h
    · next last hlast =>
      split at h
      · next hall =>
        obtain ⟨rfl, rfl⟩ : last = indent ∧ t.dropWhile isBlank = rest := by simpa using h
        obtain ⟨gap, hgap⟩ := exists_eq_append_of_afterLastFeed? hlast
        have hblank : Only isBlank (gap ++ '\n' :: last) := hgap ▸ only_takeWhile isBlank t
        refine ⟨gap, (only_append.1 hblank).1, List.all_eq_true.1 hall,
          stops_dropWhile isBlank t, ?_⟩
        calc
          t = t.takeWhile isBlank ++ t.dropWhile isBlank := List.takeWhile_append_dropWhile.symm
          _ = gap ++ ("\n".toList ++ (last ++ t.dropWhile isBlank)) := by rw [hgap]; simp
      · simp at h
    · simp at h
  · rintro ⟨gap, hgap, hindent, hstop, ht⟩
    have hrun : Only isBlank (gap ++ '\n' :: indent) := (isGap_newLine hgap hindent).2
    have heq : t = (gap ++ '\n' :: indent) ++ rest := by simp [ht]
    unfold newLine?
    rw [heq, takeWhile_run_append hrun hstop, dropWhile_run_append hrun hstop,
      afterLastFeed?_append gap (hindent.not_mem (by decide))]
    simp [List.all_eq_true.2 hindent]

theorem newLine?_append {gap indent : Text} (hgap : Only isBlank gap) (hindent : Only isIndent indent)
    (ht : Stops isBlank t) :
    newLine? (gap ++ ("\n".toList ++ (indent ++ t))) = some (indent, t) :=
  newLine?_eq_some_iff.2 ⟨gap, hgap, hindent, ht, rfl⟩

/-! ### Access and type -/

/-- No access keyword is the beginning of another, so the first that fits is the only one. -/
theorem access?_eq_some_iff {access : Text} :
    access? t = some (access, rest) ↔ IsAccess access ∧ t = access ++ rest := by
  constructor
  · intro h
    -- The keyword that was read is one of the list.
    obtain ⟨word, hword, hread⟩ := List.exists_of_findSome?_eq_some h
    obtain ⟨r, hr, heq⟩ := Option.map_eq_some_iff.1 hread
    obtain ⟨rfl, rfl⟩ : word.toList = access ∧ r = rest := by simpa using heq
    exact ⟨List.mem_map_of_mem hword, literal?_eq_some_iff.1 hr⟩
  · rintro ⟨haccess, rfl⟩
    obtain ⟨word, hword, rfl⟩ := List.mem_map.1 haccess
    simp only [accessWords, List.mem_cons, List.not_mem_nil, or_false] at hword
    rcases hword with rfl | rfl | rfl | rfl
    all_goals simp [access?, accessWords, literal?, behind?]

theorem typeArguments?_eq_nil (h : Stops (· == '<') (skipBlanks t)) :
    typeArguments? t = some ([], t) := by
  unfold typeArguments?
  split
  · next inner hinner =>
    rw [hinner, stops_cons] at h
    exact absurd h (by decide)
  · rfl

theorem typeArguments?_append {gap body : Text} (hgap : Only isBlank gap) (hne : body ≠ [])
    (hbody : '>' ∉ body) (t : Text) :
    typeArguments? (gap ++ '<' :: (body ++ '>' :: t)) =
      some (gap ++ '<' :: (body ++ ['>']), t) := by
  have hrun : Only (· ≠ '>') body := only_ne_of_not_mem hbody
  have hstop : Stops (· ≠ '>') ('>' :: t) := stops_cons.2 (by decide)
  have hangle : Stops isBlank ('<' :: (body ++ '>' :: t)) := stops_cons.2 (by decide)
  unfold typeArguments?
  rw [skipBlanks_append hgap hangle]
  simp only [takeWhile_run_append hrun hstop, dropWhile_run_append hrun hstop,
    takeWhile_run_append hgap hangle]
  cases body with
  | nil => exact absurd rfl hne
  | cons c body => simp

theorem isTypeArguments_of_typeArguments? {arguments : Text}
    (h : typeArguments? t = some (arguments, rest)) :
    IsTypeArguments arguments ∧ t = arguments ++ rest := by
  unfold typeArguments? at h
  split at h
  · next inner hinner =>
    split at h
    · next c body r hbody hrest =>
      obtain ⟨rfl, rfl⟩ : t.takeWhile isBlank ++ '<' :: c :: body ++ ['>'] = arguments ∧ r = rest := by
        simpa using h
      have hfree : '>' ∉ c :: body := by
        intro hmem
        have hclose := only_takeWhile (· ≠ '>') inner _ (hbody ▸ hmem)
        simp at hclose
      refine ⟨?_, ?_⟩
      · have hspelled := IsTypeArguments.some _ _ (only_takeWhile isBlank t) (List.cons_ne_nil c body)
          hfree
        simpa using hspelled
      · calc
          t = t.takeWhile isBlank ++ skipBlanks t := List.takeWhile_append_dropWhile.symm
          _ = t.takeWhile isBlank ++ '<' :: (inner.takeWhile (· ≠ '>') ++
                inner.dropWhile (· ≠ '>')) := by
            rw [hinner, List.takeWhile_append_dropWhile]
          _ = t.takeWhile isBlank ++ '<' :: c :: body ++ ['>'] ++ r := by
            rw [hbody, hrest]
            simp
    · simp at h
  · obtain ⟨rfl, rfl⟩ : [] = arguments ∧ t = rest := by simpa using h
    exact ⟨.none, rfl⟩

theorem arrayBrackets_append {brackets : Text} (hbrackets : IsArrayBrackets brackets)
    (ht : Stops (· == '[') t) : arrayBrackets (brackets ++ t) = (brackets, t) := by
  rcases hbrackets with rfl | rfl
  · cases t with
    | nil => rfl
    | cons c t =>
      have hc : '[' ≠ c := by
        intro heq
        simp [← heq] at ht
      simp [arrayBrackets, literal?, behind?, hc]
  · unfold arrayBrackets
    rw [literal?_append]

theorem isArrayBrackets_arrayBrackets (t : Text) :
    IsArrayBrackets (arrayBrackets t).1 ∧ t = (arrayBrackets t).1 ++ (arrayBrackets t).2 := by
  unfold arrayBrackets
  split
  · next r hr => exact ⟨.inr rfl, literal?_eq_some_iff.1 hr⟩
  · exact ⟨.inl rfl, rfl⟩

/-- What follows the word of a type is no word character. -/
theorem stops_isWord_of_isTypeArguments {arguments brackets : Text}
    (harguments : IsTypeArguments arguments) (hbrackets : IsArrayBrackets brackets)
    (ht : Stops isWord t) : Stops isWord (arguments ++ (brackets ++ t)) := by
  cases harguments with
  | none =>
    rcases hbrackets with rfl | rfl
    · exact ht
    · simp; decide
  | some gap body hgap hne hbody =>
    simp only [List.append_assoc]
    exact stops_isWord_append hgap (by simp; decide)

/-- A type is read as a whole in front of a gap and a character that is no angle bracket. -/
theorem type?_append {type gap : Text} (htype : IsType type) (hgap : IsGap gap)
    (hblank : Stops isBlank t) (hangle : Stops (· == '<') t) :
    type? (type ++ (gap ++ t)) = some (type, gap ++ t) := by
  obtain ⟨word, arguments, brackets, hword, harguments, hbrackets, rfl⟩ := htype
  have hsquare : Stops (· == '[') (gap ++ t) :=
    hgap.2.stops hgap.1 fun _ => beq_eq_false_of_class (by decide)
  -- Without arguments the reader must not take a later angle bracket for theirs.
  have hread : typeArguments? (arguments ++ (brackets ++ (gap ++ t))) =
      some (arguments, brackets ++ (gap ++ t)) := by
    cases harguments with
    | none =>
      refine typeArguments?_eq_nil ?_
      rcases hbrackets with rfl | rfl
      · rw [List.nil_append, List.nil_append, skipBlanks_append hgap.2 hblank]
        exact hangle
      · have hskip : skipBlanks ("[]".toList ++ (gap ++ t)) = "[]".toList ++ (gap ++ t) :=
          dropWhile_eq_self_of_stops (by simp; decide)
        rw [List.nil_append, hskip]
        simp
    | some gap' body hgap' hne hbody =>
      simpa using typeArguments?_append hgap' hne hbody (brackets ++ (gap ++ t))
  have hstop : Stops isWord (arguments ++ (brackets ++ (gap ++ t))) :=
    stops_isWord_of_isTypeArguments harguments hbrackets hgap.stops_isWord
  have hwordRead : word? (word ++ (arguments ++ (brackets ++ (gap ++ t)))) = some (word, _) :=
    word?_eq_some_iff.2 ⟨hword, hstop, rfl⟩
  simp only [List.append_assoc, type?, bind, pure, Option.bind, hwordRead, hread,
    arrayBrackets_append hbrackets hsquare]

theorem isType_of_type? {type : Text} (h : type? t = some (type, rest)) :
    IsType type ∧ t = type ++ rest := by
  simp only [type?, bind, Option.bind_eq_some_iff, pure, Option.some.injEq, Prod.mk.injEq] at h
  obtain ⟨⟨word, t₁⟩, hword, ⟨arguments, t₂⟩, harguments, rfl, rfl⟩ := h
  obtain ⟨hidentifier, -, rfl⟩ := word?_eq_some_iff.1 hword
  obtain ⟨hargs, rfl⟩ := isTypeArguments_of_typeArguments? harguments
  obtain ⟨hbrackets, heq⟩ := isArrayBrackets_arrayBrackets t₂
  refine ⟨⟨word, arguments, _, hidentifier, hargs, hbrackets, rfl⟩, ?_⟩
  rw [List.append_assoc, List.append_assoc, ← heq]

/-! ### The setter -/

theorem literal?_skipBlanks {word : String} {gap : Text} (hgap : Only isBlank gap)
    (hword : Stops isBlank (word.toList ++ t)) :
    literal? word (skipBlanks (gap ++ (word.toList ++ t))) = some t := by
  rw [skipBlanks_append hgap hword, literal?_append]

theorem exists_eq_of_literal?_skipBlanks {word : String}
    (h : literal? word (skipBlanks t) = some rest) :
    ∃ gap, Only isBlank gap ∧ t = gap ++ (word.toList ++ rest) := by
  obtain ⟨gap, hgap, heq⟩ := exists_eq_append_skipBlanks t
  rw [literal?_eq_some_iff.1 h] at heq
  exact ⟨gap, hgap, heq⟩

theorem setter?_eq_some_iff {method : Text} :
    setter? t = some (method, rest) ↔
      ∃ l : SetterLayout, l.WellFormed ∧ IsIdentifier method ∧ t = l.spelled method ++ rest := by
  simp only [setter?, bind, Option.bind_eq_some_iff, pure, Option.some.injEq, Prod.mk.injEq,
    Prod.exists]
  constructor
  · rintro ⟨t₁, hset, t₂, harrow, m, t₃, hmethod, t₄, hparenthesis, t₅, href, t₆, hgap, t₇, hfield,
      t₈, hcomma, t₉, hvalue, t₁₀, hend, rfl, rfl⟩
    obtain ⟨afterSet, hafterSet, heq₁⟩ := exists_eq_of_literal?_skipBlanks harrow
    obtain ⟨afterArrow, hafterArrow, heq₂⟩ := exists_eq_append_skipBlanks t₂
    obtain ⟨hidentifier, -, hskip⟩ := word?_eq_some_iff.1 hmethod
    obtain ⟨afterMethod, hafterMethod, heq₃⟩ := exists_eq_of_literal?_skipBlanks hparenthesis
    obtain ⟨afterParenthesis, hafterParenthesis, heq₄⟩ := exists_eq_of_literal?_skipBlanks href
    obtain ⟨afterRef, hafterRef, -, heq₅⟩ := blanks?_eq_some_iff.1 hgap
    obtain ⟨afterField, hafterField, heq₇⟩ := exists_eq_of_literal?_skipBlanks hcomma
    obtain ⟨afterComma, hafterComma, heq₈⟩ := exists_eq_of_literal?_skipBlanks hvalue
    obtain ⟨afterValue, hafterValue, heq₉⟩ := exists_eq_of_literal?_skipBlanks hend
    -- The blanks that were skipped make up the layout.
    refine ⟨⟨afterSet, afterArrow, afterMethod, afterParenthesis, afterRef, afterField, afterComma,
      afterValue⟩, ⟨hafterSet, hafterArrow, hafterMethod, hafterParenthesis, hafterRef, hafterField,
      hafterComma, hafterValue⟩, hidentifier, ?_⟩
    rw [literal?_eq_some_iff.1 hset, heq₁, heq₂, hskip, heq₃, heq₄, heq₅,
      literal?_eq_some_iff.1 hfield, heq₇, heq₈, heq₉]
    unfold SetterLayout.spelled
    simp only [List.append_assoc]
  · rintro ⟨l, hl, hmethod, heq⟩
    unfold SetterLayout.spelled at heq
    simp only [List.append_assoc] at heq
    refine ⟨_, literal?_eq_some_iff.2 heq, _, literal?_skipBlanks hl.afterSet ?_, method, _, ?_, _,
      literal?_skipBlanks hl.afterMethod ?_, _, literal?_skipBlanks hl.afterParenthesis ?_, _,
      blanks?_eq_some_iff.2 ⟨_, hl.afterRef, ?_, rfl⟩, _, literal?_append "field" _, _,
      literal?_skipBlanks hl.afterField ?_, _, literal?_skipBlanks hl.afterComma ?_, _,
      literal?_skipBlanks hl.afterValue ?_, rfl, rfl⟩
    · simp; decide
    · rw [skipBlanks_append hl.afterArrow hmethod.stops_isBlank]
      refine word?_eq_some_iff.2 ⟨hmethod, ?_, rfl⟩
      -- The method ends at a blank or at the parenthesis.
      exact stops_isWord_append hl.afterMethod (by simp; decide)
    all_goals simp; decide

/-! ### The whole declaration -/

/-- The reader behind the name of a property, where the four texts in front of it are given. -/
def readBlock? (indent access type name : Text) (t : Text) : Option (Declaration × Text) := do
  let (braceIndent, t) ← newLine? t
  let t ← literal? "\x7b" t
  let (getIndent, t) ← newLine? t
  let t ← literal? "get;" t
  let (setIndent, t) ← newLine? t
  let (method, t) ← setter? t
  let (closeIndent, t) ← newLine? t
  let t ← literal? "\x7d" t
  return (⟨indent, access, type, name, braceIndent, getIndent, setIndent, method, closeIndent⟩, t)

theorem isIdentifier_of_isAccess {access : Text} (h : IsAccess access) : IsIdentifier access := by
  obtain ⟨word, hword, rfl⟩ := List.mem_map.1 h
  simp only [accessWords, List.mem_cons, List.not_mem_nil, or_false] at hword
  rcases hword with rfl | rfl | rfl | rfl
  all_goals exact ⟨by simp, by simp; decide⟩

theorem stops_isBlank_of_isType {type : Text} (h : IsType type) (t : Text) :
    Stops isBlank (type ++ t) := by
  obtain ⟨word, arguments, brackets, hword, -, -, rfl⟩ := h
  rw [List.append_assoc, List.append_assoc]
  exact hword.stops_isBlank

/-- What stands up to the name is read as it is spelled, and the rest is left to the block. -/
theorem read?_header_append {indent access gap type gap' name : Text}
    (hindent : Only isIndent indent) (haccess : IsAccess access) (hgap : IsGap gap)
    (htype : IsType type) (hgap' : IsGap gap') (hname : IsIdentifier name) (ht : Stops isWord t) :
    read? (indent ++ (access ++ (gap ++ (type ++ (gap' ++ (name ++ t)))))) =
      readBlock? indent access type name t := by
  have hindentRead (s : Text) : indentation (indent ++ (access ++ s)) = (indent, access ++ s) := by
    have hstop : Stops isBlank (access ++ s) := (isIdentifier_of_isAccess haccess).stops_isBlank
    exact indentation_eq_iff.2 ⟨hindent, hstop.mono fun _ => isBlank_of_isIndent, rfl⟩
  have haccessRead (s : Text) : access? (access ++ s) = some (access, s) :=
    access?_eq_some_iff.2 ⟨haccess, rfl⟩
  have hgapRead (s : Text) : blanks? (gap ++ (type ++ s)) = some (type ++ s) :=
    blanks?_eq_some_iff.2 ⟨gap, hgap, stops_isBlank_of_isType htype s, rfl⟩
  -- The name begins with a word character, so the type ends in front of the second gap.
  have hangle : Stops (· == '<') (name ++ t) := hname.stops_beq (by decide)
  have htypeRead := type?_append htype hgap' hname.stops_isBlank hangle
  have hgapRead' : blanks? (gap' ++ (name ++ t)) = some (name ++ t) :=
    blanks?_eq_some_iff.2 ⟨gap', hgap', hname.stops_isBlank, rfl⟩
  have hnameRead : word? (name ++ t) = some (name, t) :=
    word?_eq_some_iff.2 ⟨hname, ht, rfl⟩
  simp only [read?, readBlock?, bind, hindentRead, haccessRead, hgapRead, htypeRead, hgapRead',
    hnameRead, Option.bind_some]

theorem stops_isBlank_setter (l : SetterLayout) (method t : Text) :
    Stops isBlank (l.spelled method ++ t) := by
  unfold SetterLayout.spelled
  simp only [List.append_assoc]
  rw [stops_append (by simp)]
  simp; decide

/-- A block begins with the gap in front of its opening brace. -/
theorem exists_block_eq {d : Declaration} {l : Layout} (hd : d.WellFormed) (hl : l.WellFormed) :
    ∃ gap inner, IsGap gap ∧ d.blockSpelled l = gap ++ ("\x7b".toList ++ inner) := by
  obtain ⟨inner, hinner⟩ : ∃ inner, d.blockSpelled l =
      (l.afterName ++ ("\n".toList ++ d.braceIndent)) ++ ("\x7b".toList ++ inner) := by
    unfold blockSpelled
    simp only [List.append_assoc]
    exact ⟨_, rfl⟩
  exact ⟨_, inner, isGap_newLine hl.afterName hd.braceIndent, hinner⟩

theorem stops_isWord_block {d : Declaration} {l : Layout} (hd : d.WellFormed) (hl : l.WellFormed)
    (t : Text) : Stops isWord (d.blockSpelled l ++ t) := by
  obtain ⟨gap, inner, hgap, hblock⟩ := exists_block_eq hd hl
  rw [hblock, List.append_assoc]
  exact hgap.stops_isWord

/-- The block is read as it is spelled. -/
theorem readBlock?_append {d : Declaration} {l : Layout} (hd : d.WellFormed) (hl : l.WellFormed)
    (rest : Text) :
    readBlock? d.indent d.access d.type d.name (d.blockSpelled l ++ rest) = some (d, rest) := by
  have hbrace (s : Text) : Stops isBlank ("\x7b".toList ++ s) := by simp; decide
  have hget (s : Text) : Stops isBlank ("get;".toList ++ s) := by simp; decide
  have hclose (s : Text) : Stops isBlank ("\x7d".toList ++ s) := by simp; decide
  have hsetter (s : Text) : setter? (l.setter.spelled d.method ++ s) = some (d.method, s) :=
    setter?_eq_some_iff.2 ⟨l.setter, hl.setter, hd.method, rfl⟩
  unfold blockSpelled
  simp only [readBlock?, List.append_assoc, bind, pure, Option.bind_some,
    newLine?_append hl.afterName hd.braceIndent (hbrace _),
    newLine?_append hl.afterBrace hd.getIndent (hget _),
    newLine?_append hl.afterGet hd.setIndent (stops_isBlank_setter _ _ _),
    newLine?_append hl.afterSetter hd.closeIndent (hclose _), hsetter, literal?_append]

/-- A text spells at most one declaration at its beginning, and that is what is read there. -/
theorem read?_eq_some_iff {d : Declaration} :
    read? t = some (d, rest) ↔ ∃ s, d.IsSpelledBy s ∧ t = s ++ rest := by
  constructor
  · intro h
    simp only [read?, bind, Option.bind_eq_some_iff, pure, Option.some.injEq, Prod.mk.injEq,
      Prod.exists] at h
    obtain ⟨access, t₁, haccess, t₂, hafterAccess, type, t₃, htype, t₄, hafterType, name, t₅, hname,
      braceIndent, t₆, hbrace, t₇, hopen, getIndent, t₈, hget, t₉, hgetWord, setIndent, t₁₀, hset,
      method, t₁₁, hsetter, closeIndent, t₁₂, hclose, t₁₃, hend, rfl, rfl⟩ := h
    obtain ⟨hindent, -, heq⟩ := indentation_eq_iff.1 (Prod.eta (indentation t)).symm
    obtain ⟨haccessClass, heq₁⟩ := access?_eq_some_iff.1 haccess
    obtain ⟨afterAccess, hgap₁, -, heq₂⟩ := blanks?_eq_some_iff.1 hafterAccess
    obtain ⟨htypeClass, heq₃⟩ := isType_of_type? htype
    obtain ⟨afterType, hgap₂, -, heq₄⟩ := blanks?_eq_some_iff.1 hafterType
    obtain ⟨hnameClass, -, heq₅⟩ := word?_eq_some_iff.1 hname
    obtain ⟨afterName, hgap₃, hbraceIndent, -, heq₆⟩ := newLine?_eq_some_iff.1 hbrace
    obtain ⟨afterBrace, hgap₄, hgetIndent, -, heq₇⟩ := newLine?_eq_some_iff.1 hget
    obtain ⟨afterGet, hgap₅, hsetIndent, -, heq₈⟩ := newLine?_eq_some_iff.1 hset
    obtain ⟨setter, hsetterLayout, hmethod, heq₉⟩ := setter?_eq_some_iff.1 hsetter
    obtain ⟨afterSetter, hgap₆, hcloseIndent, -, heq₁₀⟩ := newLine?_eq_some_iff.1 hclose
    refine ⟨_, ⟨⟨afterAccess, afterType, afterName, afterBrace, afterGet, setter, afterSetter⟩,
      ⟨hindent, haccessClass, htypeClass, hnameClass, hbraceIndent, hgetIndent, hsetIndent, hmethod,
        hcloseIndent⟩,
      ⟨hgap₁, hgap₂, hgap₃, hgap₄, hgap₅, hsetterLayout, hgap₆⟩, rfl⟩, ?_⟩
    -- Put together again from the end, the parts are the text.
    unfold spelled blockSpelled
    simp only [List.append_assoc]
    rw [← literal?_eq_some_iff.1 hend, ← heq₁₀, ← heq₉, ← heq₈, ← literal?_eq_some_iff.1 hgetWord,
      ← heq₇, ← literal?_eq_some_iff.1 hopen, ← heq₆, ← heq₅, ← heq₄, ← heq₃, ← heq₂, ← heq₁, ← heq]
  · rintro ⟨s, ⟨l, hd, hl, rfl⟩, rfl⟩
    unfold spelled
    simp only [List.append_assoc]
    rw [read?_header_append hd.indent hd.access hl.afterAccess hd.type hl.afterType hd.name
        (stops_isWord_block hd hl rest),
      readBlock?_append hd hl rest]

end Declaration
end BackingField
