import BackingField.Diff.Unified
import BackingField.Proofs.Text.Runs

/-!
# Patches

How a unified diff is read and applied.  Below the names of the file stand hunks.  The header of a
hunk gives the place and the number of its lines on both sides, and every line of it begins with a
mark.  A note behind a line says that the line has no end.

A hunk is applied at the old place that its header gives.  All kept and deleted lines have to stand
there, and a patch is refused when a header does not count the lines of its hunk.
-/

namespace BackingField
namespace Diff

namespace Action

/-- Mark in front of a line. -/
def mark : Action → Char
  | .keep => ' '
  | .delete => '-'
  | .insert => '+'

/-- What the mark in front of a line says. -/
def ofMark? (c : Char) : Option Action :=
  if c = ' ' then some .keep
  else if c = '-' then some .delete
  else if c = '+' then some .insert
  else none

@[simp] theorem ofMark?_mark (action : Action) : ofMark? action.mark = some action := by
  cases action <;> rfl

end Action

namespace Patch

/-- A range of lines: how many come before it, and how many it has. -/
structure Range where
  place : Nat
  count : Nat
deriving DecidableEq

/-- A line and what happens to it. -/
abbrev Entry := Action × Text

/-- A hunk as it is read. -/
structure Hunk where
  old : Range
  new : Range
  entries : List Entry
deriving DecidableEq

namespace Hunk

/-- Lines that the hunk finds. -/
def before (h : Hunk) : List Text :=
  (h.entries.filter (·.1 ≠ .insert)).map Prod.snd

/-- Lines that the hunk leaves. -/
def after (h : Hunk) : List Text :=
  (h.entries.filter (·.1 ≠ .delete)).map Prod.snd

/-- The header counts the lines of the hunk. -/
def Counted (h : Hunk) : Prop :=
  h.old.count = h.before.length ∧ h.new.count = h.after.length

instance (h : Hunk) : Decidable h.Counted :=
  inferInstanceAs (Decidable (_ ∧ _))

/-- The hunk begins and ends with kept lines. -/
def Framed (h : Hunk) : Prop :=
  (∀ e ∈ h.entries.head?, e.1 = .keep) ∧ ∀ e ∈ h.entries.getLast?, e.1 = .keep

end Hunk

/-! ### Reading -/

/-- A number, and what comes behind it. -/
def number? (t : Text) : Option (Nat × Text) :=
  let digits := t.takeWhile Char.isDigit
  if digits = [] then none
  else some (Nat.ofDigitChars 10 digits 0, t.dropWhile Char.isDigit)

/-- A range in a header, counted from one.  A range of one line has no count, and an empty range is
given by the line before. -/
def range? (t : Text) : Option (Range × Text) := do
  let (number, t) ← number? t
  match t with
  | ',' :: t =>
      let (count, t) ← number? t
      some (⟨if count = 0 then number else number - 1, count⟩, t)
  | t => some (⟨number - 1, 1⟩, t)

/-- The ranges of a header. -/
def header? (line : Text) : Option (Range × Range) := do
  let t ← Text.behind? "@@ -".toList line
  let (old, t) ← range? t
  let t ← Text.behind? " +".toList t
  let (new, t) ← range? t
  if t = " @@\n".toList then some (old, new) else none

/-- Line that says that the line before it has no end. -/
def note : Text :=
  "\\ No newline at end of file\n".toList

/-- Lines of a patch without the notes.  What stands before a note loses its end. -/
def withoutNotes : List Text → List Text
  | [] => []
  | [line] => [line]
  | line :: next :: rest =>
      if next = note then line.dropLast :: withoutNotes rest
      else line :: withoutNotes (next :: rest)

/-- Marked lines in front of the first header, and the hunks behind. -/
def group? : List Text → Option (List Entry × List Hunk)
  | [] => some ([], [])
  | [] :: _ => none
  | (c :: text) :: rest => do
      let (entries, hunks) ← group? rest
      match Action.ofMark? c with
      | some action => some ((action, text) :: entries, hunks)
      | none =>
          let (old, new) ← header? (c :: text)
          some ([], ⟨old, new, entries⟩ :: hunks)

/-- Hunks of a patch. -/
def read? (t : Text) : Option (List Hunk) := do
  let (entries, hunks) ← group? (withoutNotes (lines t))
  if entries = [] then some hunks else none

/-! ### Applying -/

/-- Lines that hunks make of the original ones, from behind `passed` lines on. -/
def applied? (original : List Text) : (passed : Nat) → List Hunk → Option (List Text)
  | passed, [] => some (original.drop passed)
  | passed, h :: hunks =>
      if passed ≤ h.old.place ∧ h.old.place ≤ original.length ∧
          h.before <+: original.drop h.old.place then
        (applied? original (h.old.place + h.before.length) hunks).map fun rest =>
          original.extract passed h.old.place ++ h.after ++ rest
      else
        none

/-- Text that a patch makes of another. -/
def patch? (t original : Text) : Option Text := do
  let hunks ← read? t
  if ∀ h ∈ hunks, h.Counted then
    (applied? (lines original) 0 hunks).map List.flatten
  else
    none

end Patch

end Diff
end BackingField
