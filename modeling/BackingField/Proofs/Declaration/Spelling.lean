import BackingField.Declaration.Reader
import BackingField.Proofs.Text.Runs

/-!
# How a declaration is spelled

The grammar of declarations, written down without a reader.  The nine texts of a declaration are
drawn from their classes (`Declaration.WellFormed`), the blanks between them are left open
(`Layout`), and `Declaration.spelled` puts the two together.  A text spells a declaration when it is
the result for some layout (`Declaration.IsSpelledBy`).
-/

namespace BackingField

open Text

/-- Type arguments: nothing, or at least one character other than `>` in angle brackets, with blanks
in front of them. -/
inductive IsTypeArguments : Text → Prop
  | none : IsTypeArguments []
  | some (gap body : Text) (hgap : Only isBlank gap) (hne : body ≠ []) (hbody : '>' ∉ body) :
      IsTypeArguments (gap ++ "<".toList ++ body ++ ">".toList)

/-- Array brackets: nothing, or one pair. -/
def IsArrayBrackets (t : Text) : Prop :=
  t = [] ∨ t = "[]".toList

/-- A type: an identifier, its type arguments and its array brackets. -/
def IsType (t : Text) : Prop :=
  ∃ word arguments brackets, IsIdentifier word ∧ IsTypeArguments arguments ∧
    IsArrayBrackets brackets ∧ t = word ++ arguments ++ brackets

/-- One of the access keywords. -/
def IsAccess (t : Text) : Prop :=
  t ∈ Declaration.accessWords.map String.toList

/-- The blanks inside a setter. -/
@[ext]
structure SetterLayout where
  afterSet : Text
  afterArrow : Text
  afterMethod : Text
  afterParenthesis : Text
  afterRef : Text
  afterField : Text
  afterComma : Text
  afterValue : Text
deriving DecidableEq

/-- The blanks between the parts of a declaration.  At the end of a line they are the blanks in front
of the line feed. -/
@[ext]
structure Layout where
  afterAccess : Text
  afterType : Text
  afterName : Text
  afterBrace : Text
  afterGet : Text
  setter : SetterLayout
  afterSetter : Text
deriving DecidableEq

/-- All of the layout is blank, and the two words `ref` and `field` are kept apart. -/
structure SetterLayout.WellFormed (l : SetterLayout) : Prop where
  afterSet : Only isBlank l.afterSet
  afterArrow : Only isBlank l.afterArrow
  afterMethod : Only isBlank l.afterMethod
  afterParenthesis : Only isBlank l.afterParenthesis
  afterRef : IsGap l.afterRef
  afterField : Only isBlank l.afterField
  afterComma : Only isBlank l.afterComma
  afterValue : Only isBlank l.afterValue

/-- All of the layout is blank, and access, type and name are kept apart. -/
structure Layout.WellFormed (l : Layout) : Prop where
  afterAccess : IsGap l.afterAccess
  afterType : IsGap l.afterType
  afterName : Only isBlank l.afterName
  afterBrace : Only isBlank l.afterBrace
  afterGet : Only isBlank l.afterGet
  setter : l.setter.WellFormed
  afterSetter : Only isBlank l.afterSetter

/-- A setter that calls the given method, without its indentation. -/
def SetterLayout.spelled (l : SetterLayout) (method : Text) : Text :=
  "set".toList ++ l.afterSet ++ "=>".toList ++ l.afterArrow ++ method ++ l.afterMethod ++
  "(".toList ++ l.afterParenthesis ++ "ref".toList ++ l.afterRef ++ "field".toList ++
  l.afterField ++ ",".toList ++ l.afterComma ++ "value".toList ++ l.afterValue ++ ");".toList

namespace Declaration

/-- The texts of a declaration belong to their classes. -/
structure WellFormed (d : Declaration) : Prop where
  indent : Only isIndent d.indent
  access : IsAccess d.access
  type : IsType d.type
  name : IsIdentifier d.name
  braceIndent : Only isIndent d.braceIndent
  getIndent : Only isIndent d.getIndent
  setIndent : Only isIndent d.setIndent
  method : IsIdentifier d.method
  closeIndent : Only isIndent d.closeIndent

/-- What follows the name of a property, up to and including the closing brace. -/
def blockSpelled (d : Declaration) (l : Layout) : Text :=
  l.afterName ++ "\n".toList ++ d.braceIndent ++ "\x7b".toList ++
  l.afterBrace ++ "\n".toList ++ d.getIndent ++ "get;".toList ++
  l.afterGet ++ "\n".toList ++ d.setIndent ++ l.setter.spelled d.method ++
  l.afterSetter ++ "\n".toList ++ d.closeIndent ++ "\x7d".toList

/-- A declaration written out in a layout. -/
def spelled (d : Declaration) (l : Layout) : Text :=
  d.indent ++ d.access ++ l.afterAccess ++ d.type ++ l.afterType ++ d.name ++ d.blockSpelled l

/-- The text is the declaration, written out in some layout. -/
def IsSpelledBy (d : Declaration) (t : Text) : Prop :=
  ∃ l : Layout, d.WellFormed ∧ l.WellFormed ∧ t = d.spelled l

theorem IsSpelledBy.wellFormed {d : Declaration} {t : Text} (h : d.IsSpelledBy t) : d.WellFormed := by
  obtain ⟨l, hd, -, -⟩ := h
  exact hd

end Declaration
end BackingField
