import BackingField.Proofs.Text.CarriageReturns
import BackingField.Proofs.Text.LowerCase
import BackingField.Proofs.Declaration.Reading

/-!
# Declarations with other line ends

A carriage return in front of every line feed changes nothing in what is read, apart from the line
feeds of the texts that are read (`read?_withCarriageReturns`).  Blanks take in the carriage returns,
and apart from the type no part of a declaration reaches a line feed.  The expanded form with line
feeds becomes the one with both characters (`expanded_withCarriageReturns`).
-/

namespace BackingField
namespace Declaration

open Text

/-- Two readers whose steps give the same up to a change of the results give the same in the end. -/
theorem bind_eq_map_bind {α β γ δ : Type} {step : Option α} {step' : Option β} {f : α → β}
    {next : α → Option γ} {next' : β → Option δ} {g : γ → δ} (hstep : step' = step.map f)
    (hnext : ∀ a, next' (f a) = (next a).map g) : step'.bind next' = (step.bind next).map g := by
  subst hstep
  cases step with
  | none => rfl
  | some a => exact hnext a

/-- The change of a part that was read and of what is left behind it. -/
def partWithCarriageReturns (read : Text × Text) : Text × Text :=
  (Text.withCarriageReturns read.1, Text.withCarriageReturns read.2)

/-- The declaration with a carriage return in front of every line feed.  When it is well-formed, only
its type has any. -/
def withCarriageReturns (d : Declaration) : Declaration where
  indent := Text.withCarriageReturns d.indent
  access := Text.withCarriageReturns d.access
  type := Text.withCarriageReturns d.type
  name := Text.withCarriageReturns d.name
  braceIndent := Text.withCarriageReturns d.braceIndent
  getIndent := Text.withCarriageReturns d.getIndent
  setIndent := Text.withCarriageReturns d.setIndent
  method := Text.withCarriageReturns d.method
  closeIndent := Text.withCarriageReturns d.closeIndent

/-! ### The parts of a declaration -/

/-- A word of the grammar that does not touch a line end. -/
def IsSolid (word : String) : Prop :=
  '\r' ∉ word.toList ∧ '\n' ∉ word.toList

instance (word : String) : Decidable (IsSolid word) :=
  inferInstanceAs (Decidable (_ ∧ _))

theorem literal?_withCarriageReturns {word : String} (hword : IsSolid word) (t : Text) :
    literal? word (Text.withCarriageReturns t) =
      (literal? word t).map Text.withCarriageReturns :=
  behind?_withCarriageReturns hword.1 hword.2 t

theorem skipBlanks_withCarriageReturns (t : Text) :
    skipBlanks (Text.withCarriageReturns t) = Text.withCarriageReturns (skipBlanks t) :=
  dropWhile_withCarriageReturns (by decide) t

theorem literal?_skipBlanks_withCarriageReturns {word : String} (hword : IsSolid word) (t : Text) :
    literal? word (skipBlanks (Text.withCarriageReturns t)) =
      (literal? word (skipBlanks t)).map Text.withCarriageReturns := by
  rw [skipBlanks_withCarriageReturns, literal?_withCarriageReturns hword]

theorem blanks?_withCarriageReturns (t : Text) :
    blanks? (Text.withCarriageReturns t) = (blanks? t).map Text.withCarriageReturns := by
  cases t with
  | nil => rfl
  | cons c t =>
    by_cases hc : c = '\n'
    · subst hc
      have hreturn : isBlank '\r' = true := by decide
      have hfeed : isBlank '\n' = true := by decide
      have hskip : skipBlanks ('\n' :: Text.withCarriageReturns t) =
          skipBlanks (Text.withCarriageReturns t) :=
        List.dropWhile_cons_of_pos hfeed
      simp [blanks?, hreturn, hfeed, hskip, skipBlanks_withCarriageReturns]
    · rw [withCarriageReturns_cons hc]
      cases hblank : isBlank c with
      | true => simp [blanks?, hblank, skipBlanks_withCarriageReturns]
      | false => simp [blanks?, hblank]

theorem word?_withCarriageReturns (t : Text) :
    word? (Text.withCarriageReturns t) = (word? t).map partWithCarriageReturns := by
  have hfeed : '\n' ∉ t.takeWhile isWord := (only_takeWhile isWord t).not_mem (by decide)
  unfold word?
  rw [takeWhile_withCarriageReturns (by decide), dropWhile_withCarriageReturns (by decide),
    withCarriageReturns_eq_self hfeed]
  cases hrun : t.takeWhile isWord with
  | nil => rfl
  | cons c run =>
    rw [hrun] at hfeed
    simp only [Option.map_some, partWithCarriageReturns, withCarriageReturns_eq_self hfeed]

theorem indentation_withCarriageReturns (t : Text) :
    indentation (Text.withCarriageReturns t) = partWithCarriageReturns (indentation t) := by
  unfold indentation
  rw [takeWhile_withCarriageReturns (by decide), dropWhile_withCarriageReturns (by decide)]
  rfl

theorem afterLastFeed?_withCarriageReturns (t : Text) :
    afterLastFeed? (Text.withCarriageReturns t) =
      (afterLastFeed? t).map Text.withCarriageReturns := by
  induction t with
  | nil => rfl
  | cons c t ih =>
    by_cases hc : c = '\n'
    · subst hc
      cases hlater : afterLastFeed? t with
      | some later => simp [afterLastFeed?, ih, hlater]
      | none => simp [afterLastFeed?, ih, hlater]
    · rw [withCarriageReturns_cons hc]
      cases hlater : afterLastFeed? t with
      | some later => simp [afterLastFeed?, ih, hlater]
      | none => simp [afterLastFeed?, ih, hlater, hc]

theorem all_isIndent_withCarriageReturns (t : Text) :
    (Text.withCarriageReturns t).all isIndent = t.all isIndent := by
  induction t with
  | nil => rfl
  | cons c t ih =>
    by_cases hc : c = '\n'
    · subst hc
      have hreturn : isIndent '\r' = false := by decide
      have hfeed : isIndent '\n' = false := by decide
      simp [hreturn, hfeed]
    · rw [withCarriageReturns_cons hc, List.all_cons, List.all_cons, ih]

theorem newLine?_withCarriageReturns (t : Text) :
    newLine? (Text.withCarriageReturns t) = (newLine? t).map partWithCarriageReturns := by
  unfold newLine?
  rw [takeWhile_withCarriageReturns (by decide), dropWhile_withCarriageReturns (by decide),
    afterLastFeed?_withCarriageReturns]
  cases afterLastFeed? (t.takeWhile isBlank) with
  | none => rfl
  | some indent =>
    simp only [Option.map_some, all_isIndent_withCarriageReturns]
    split
    · rfl
    · rfl

theorem access?_withCarriageReturns (t : Text) :
    access? (Text.withCarriageReturns t) = (access? t).map partWithCarriageReturns := by
  have hwords : ∀ word ∈ accessWords, IsSolid word := by decide
  unfold access?
  generalize accessWords = words at hwords
  induction words with
  | nil => rfl
  | cons word words ih =>
    obtain ⟨hword, hrest⟩ := List.forall_mem_cons.1 hwords
    rw [List.findSome?_cons, List.findSome?_cons, literal?_withCarriageReturns hword]
    cases literal? word t with
    | some rest => simp [partWithCarriageReturns, withCarriageReturns_eq_self hword.2]
    | none => exact ih hrest

theorem typeArguments?_of_ne {t : Text} (h : ∀ inner, skipBlanks t ≠ '<' :: inner) :
    typeArguments? t = some ([], t) := by
  unfold typeArguments?
  split
  · next inner hinner => exact absurd hinner (h inner)
  · rfl

/-- Behind a first bracket, the text has arguments unless nothing or no bracket follows. -/
theorem typeArguments?_of_angle {t inner : Text} (h : skipBlanks t = '<' :: inner) :
    typeArguments? t =
      if inner.takeWhile (· ≠ '>') = [] ∨ inner.dropWhile (· ≠ '>') = [] then none
      else some (t.takeWhile isBlank ++ '<' :: inner.takeWhile (· ≠ '>') ++ ['>'],
        (inner.dropWhile (· ≠ '>')).tail) := by
  have hstop := stops_dropWhile (· ≠ '>') inner
  unfold typeArguments?
  rw [h]
  simp only
  split
  · next c body rest hbody hrest =>
    rw [hbody, hrest, if_neg (by simp)]
    rfl
  · next hnone =>
    cases hbody : inner.takeWhile (· ≠ '>') with
    | nil => simp
    | cons c body =>
      cases hrest : inner.dropWhile (· ≠ '>') with
      | nil => simp
      | cons d rest =>
        rw [hrest, stops_cons] at hstop
        obtain rfl : d = '>' := by simpa using hstop
        exact absurd hrest (hnone c body rest hbody)

/-- Type arguments may hold line feeds, and keep their bounds. -/
theorem typeArguments?_withCarriageReturns (t : Text) :
    typeArguments? (Text.withCarriageReturns t) =
      (typeArguments? t).map partWithCarriageReturns := by
  have hskip := skipBlanks_withCarriageReturns t
  by_cases hangle : ∃ inner, skipBlanks t = '<' :: inner
  · obtain ⟨inner, hinner⟩ := hangle
    have hstop := stops_dropWhile (· ≠ '>') inner
    rw [hinner, withCarriageReturns_cons (by decide)] at hskip
    rw [typeArguments?_of_angle hskip, typeArguments?_of_angle hinner,
      takeWhile_withCarriageReturns (by decide), takeWhile_withCarriageReturns (by decide),
      dropWhile_withCarriageReturns (by decide)]
    simp only [withCarriageReturns_eq_nil_iff]
    split
    · rfl
    · next hsome =>
      -- What follows the arguments begins with the bracket that closes them.
      obtain ⟨rest, hrest⟩ : ∃ rest, inner.dropWhile (· ≠ '>') = '>' :: rest := by
        cases hrest : inner.dropWhile (· ≠ '>') with
        | nil => exact absurd (.inr hrest) hsome
        | cons d rest =>
          rw [hrest, stops_cons] at hstop
          exact ⟨rest, by simpa using hstop⟩
      rw [hrest]
      simp (disch := decide) [partWithCarriageReturns, withCarriageReturns_cons]
  · have hne : ∀ inner, skipBlanks (Text.withCarriageReturns t) ≠ '<' :: inner := by
      intro inner hinner
      rw [hskip] at hinner
      cases hfront : skipBlanks t with
      | nil => simp [hfront] at hinner
      | cons c front =>
        by_cases hc : c = '\n'
        · simp [hfront, hc] at hinner
        · rw [hfront, withCarriageReturns_cons hc] at hinner
          obtain ⟨rfl, -⟩ := List.cons.inj hinner
          exact hangle ⟨front, hfront⟩
    rw [typeArguments?_of_ne hne, typeArguments?_of_ne fun inner hinner => hangle ⟨inner, hinner⟩]
    rfl

theorem arrayBrackets_withCarriageReturns (t : Text) :
    arrayBrackets (Text.withCarriageReturns t) = partWithCarriageReturns (arrayBrackets t) := by
  unfold arrayBrackets
  rw [literal?_withCarriageReturns (by decide)]
  cases literal? "[]" t with
  | some rest => rfl
  | none => rfl

theorem type?_withCarriageReturns (t : Text) :
    type? (Text.withCarriageReturns t) = (type? t).map partWithCarriageReturns := by
  unfold type?
  refine bind_eq_map_bind (word?_withCarriageReturns t) fun (word, t₁) => ?_
  refine bind_eq_map_bind (typeArguments?_withCarriageReturns t₁) fun (arguments, t₂) => ?_
  simp [partWithCarriageReturns, arrayBrackets_withCarriageReturns, pure]

theorem setter?_withCarriageReturns (t : Text) :
    setter? (Text.withCarriageReturns t) = (setter? t).map partWithCarriageReturns := by
  have hgap {word : String} (hword : IsSolid word) (t : Text) :=
    literal?_skipBlanks_withCarriageReturns hword t
  unfold setter?
  refine bind_eq_map_bind (literal?_withCarriageReturns (by decide) t) fun t₁ => ?_
  refine bind_eq_map_bind (hgap (by decide) t₁) fun t₂ => ?_
  rw [skipBlanks_withCarriageReturns]
  refine bind_eq_map_bind (word?_withCarriageReturns _) fun (method, t₃) => ?_
  refine bind_eq_map_bind (hgap (by decide) t₃) fun t₄ => ?_
  refine bind_eq_map_bind (hgap (by decide) t₄) fun t₅ => ?_
  refine bind_eq_map_bind (blanks?_withCarriageReturns t₅) fun t₆ => ?_
  refine bind_eq_map_bind (literal?_withCarriageReturns (by decide) t₆) fun t₇ => ?_
  refine bind_eq_map_bind (hgap (by decide) t₇) fun t₈ => ?_
  refine bind_eq_map_bind (hgap (by decide) t₈) fun t₉ => ?_
  exact bind_eq_map_bind (hgap (by decide) t₉) fun _ => rfl

/-- What is read is the same with carriage returns, and so is what is left. -/
theorem read?_withCarriageReturns (t : Text) :
    read? (Text.withCarriageReturns t) =
      (read? t).map fun (d, rest) => (d.withCarriageReturns, Text.withCarriageReturns rest) := by
  unfold read?
  rw [indentation_withCarriageReturns]
  refine bind_eq_map_bind (access?_withCarriageReturns _) fun (access, t₁) => ?_
  refine bind_eq_map_bind (blanks?_withCarriageReturns t₁) fun t₂ => ?_
  refine bind_eq_map_bind (type?_withCarriageReturns t₂) fun (type, t₃) => ?_
  refine bind_eq_map_bind (blanks?_withCarriageReturns t₃) fun t₄ => ?_
  refine bind_eq_map_bind (word?_withCarriageReturns t₄) fun (name, t₅) => ?_
  refine bind_eq_map_bind (newLine?_withCarriageReturns t₅) fun (braceIndent, t₆) => ?_
  refine bind_eq_map_bind (literal?_withCarriageReturns (by decide) t₆) fun t₇ => ?_
  refine bind_eq_map_bind (newLine?_withCarriageReturns t₇) fun (getIndent, t₈) => ?_
  refine bind_eq_map_bind (literal?_withCarriageReturns (by decide) t₈) fun t₉ => ?_
  refine bind_eq_map_bind (newLine?_withCarriageReturns t₉) fun (setIndent, t₁₀) => ?_
  refine bind_eq_map_bind (setter?_withCarriageReturns t₁₀) fun (method, t₁₁) => ?_
  refine bind_eq_map_bind (newLine?_withCarriageReturns t₁₁) fun (closeIndent, t₁₂) => ?_
  exact bind_eq_map_bind (literal?_withCarriageReturns (by decide) t₁₂) fun _ => rfl

/-- The expanded form with carriage returns is the expanded form of the declaration with carriage
returns. -/
theorem expanded_withCarriageReturns {d : Declaration} (hd : d.WellFormed) :
    d.withCarriageReturns.expanded .crlf = Text.withCarriageReturns (d.expanded .lf) := by
  have hname : '\n' ∉ d.name := hd.name.2.not_mem (by decide)
  have hfield : '\n' ∉ fieldName d.name :=
    (isIdentifier_fieldName hd.name).2.not_mem (by decide)
  have hfieldEq : fieldName (Text.withCarriageReturns d.name) =
      Text.withCarriageReturns (fieldName d.name) := by
    rw [withCarriageReturns_eq_self hname, withCarriageReturns_eq_self hfield]
  unfold expanded
  simp only [withCarriageReturns, withCarriageReturns_append, hfieldEq, LineEnding.text]
  simp (disch := decide) [withCarriageReturns_cons]

end Declaration
end BackingField
