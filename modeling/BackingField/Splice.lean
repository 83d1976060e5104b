import BackingField.Sorting
import BackingField.Text.Quoted

/-!
# Splicing edits into a text

An edit puts a new text in the place of a span, which is given by byte offsets.  Edits are applied
from the last to the first, so an edit never moves a span that is still to come.  Overlapping edits
are refused before anything is done, and a span must begin and end between characters of the text.
-/

namespace BackingField

/-- Replacement of the bytes from `start` up to `stop`. -/
structure Edit where
  start : Nat
  stop : Nat
  newText : Text
deriving DecidableEq

namespace Edit

/-- Edits are ordered by their start and then by their end.  The new text does not count. -/
def compare (a b : Edit) : Ordering :=
  (Ord.compare a.start b.start).then (Ord.compare a.stop b.stop)

/-- Whether an edit may stand in front of another. -/
def le (a b : Edit) : Bool :=
  (compare a b).isLE

/-- Edits in ascending order.  Edits of one span keep the order in which they came. -/
def sorted (edits : List Edit) : List Edit :=
  sortBy le edits

/-- Description of an edit in a message. -/
def describe (e : Edit) : Text :=
  "Replacement \x7b start: ".toList ++ Text.ofNat e.start ++ ", end: ".toList ++
    Text.ofNat e.stop ++ ", new_text: ".toList ++ Text.quoted e.newText ++ " \x7d".toList

/-- The text with one edit made, unless the span does not fit the text. -/
def applyTo? (e : Edit) (t : Text) : Option Text := do
  let (before, _) ← Text.cut? t e.start
  let (_, after) ← Text.cut? t e.stop
  return before ++ e.newText ++ after

end Edit

namespace Splice

/-- Why edits cannot be made. -/
inductive Fault where
  /-- The first edit ends behind the start of the second. -/
  | overlap (first second : Edit)
  /-- The span of the edit goes past the end of the text or cuts a character. -/
  | misplaced (edit : Edit)
deriving DecidableEq

/-- Text of a fault. -/
def Fault.message : Fault → Text
  | .overlap first second =>
      "Overlapping replacements detected: ".toList ++ first.describe ++ " and ".toList ++
        second.describe
  | .misplaced edit => "Replacement outside of the text: ".toList ++ edit.describe

/-- The first two neighbours of which one reaches into the other. -/
def firstOverlap? : List Edit → Option (Edit × Edit)
  | a :: b :: edits => if a.stop > b.start then some (a, b) else firstOverlap? (b :: edits)
  | _ => none

/-- Make the last of the edits first. -/
def applyBackwards (source : Text) : List Edit → Except Fault Text
  | [] => .ok source
  | e :: edits => do
      let t ← applyBackwards source edits
      match e.applyTo? t with
      | some result => .ok result
      | none => .error (.misplaced e)

end Splice

/-- Make all edits in a text. -/
def splice (source : Text) (edits : List Edit) : Except Splice.Fault Text :=
  let edits := Edit.sorted edits
  match Splice.firstOverlap? edits with
  | some (first, second) => .error (.overlap first second)
  | none => Splice.applyBackwards source edits

end BackingField
