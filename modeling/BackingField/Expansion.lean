import BackingField.Occurrence
import BackingField.Splice

/-!
# Expanding all properties of a text

All occurrences come from one search of the text.  Each is replaced by its expanded form and
everything else is left as it is.
-/

namespace BackingField

/-- A text with its properties expanded. -/
structure Expansion where
  text : Text
  /-- How many properties were expanded. -/
  properties : Nat
deriving DecidableEq

namespace Occurrence

/-- The edit that expands an occurrence. -/
def edit (o : Occurrence) : Edit :=
  ⟨o.start, o.stop, o.expanded⟩

end Occurrence

/-- Expand every property of a text. -/
def expand (source : Text) : Except Splice.Fault Expansion := do
  let occurrences := Occurrence.find source
  let text ← splice source (occurrences.map Occurrence.edit)
  return ⟨text, occurrences.length⟩

/-- Expand the properties of a text again and again, each time in the result of the time before. -/
def expandRepeatedly (source : Text) : (passes : Nat) → Except Splice.Fault (List Expansion)
  | 0 => .ok []
  | passes + 1 => do
      let expansion ← expand source
      let later ← expandRepeatedly expansion.text passes
      return expansion :: later

end BackingField
