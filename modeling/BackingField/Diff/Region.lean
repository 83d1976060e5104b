import BackingField.Diff.Line

/-!
# Regions of two versions

Two versions of a text are compared as arrays of lines.  A region is a range of lines of the old
version beside a range of lines of the new one.
-/

namespace BackingField
namespace Diff

/-- Two versions of a text, line by line. -/
structure Versions where
  old : Array Text
  new : Array Text

/-- The versions given by two texts. -/
def Versions.ofTexts (before after : Text) : Versions :=
  ⟨(lines before).toArray, (lines after).toArray⟩

/-- Old lines from `oldStart` up to `oldStop` beside new lines from `newStart` up to `newStop`. -/
structure Region where
  oldStart : Nat
  oldStop : Nat
  newStart : Nat
  newStop : Nat
deriving DecidableEq

namespace Region

/-- Number of old lines. -/
def oldCount (r : Region) : Nat :=
  r.oldStop - r.oldStart

/-- Number of new lines. -/
def newCount (r : Region) : Nat :=
  r.newStop - r.newStart

/-- Number of lines of both sides. -/
def count (r : Region) : Nat :=
  r.oldCount + r.newCount

/-- The region without its first `n` lines on both sides. -/
def dropFront (r : Region) (n : Nat) : Region :=
  { r with oldStart := r.oldStart + n, newStart := r.newStart + n }

/-- The region without its last `n` lines on both sides. -/
def dropBack (r : Region) (n : Nat) : Region :=
  { r with oldStop := r.oldStop - n, newStop := r.newStop - n }

end Region

namespace Versions

/-- The region of all lines. -/
def whole (v : Versions) : Region :=
  ⟨0, v.old.size, 0, v.new.size⟩

/-- Number of lines in which the two sides of a region agree from the front. -/
def sameFront (v : Versions) (r : Region) : Nat :=
  if r.oldStart < r.oldStop ∧ r.newStart < r.newStop ∧ v.old[r.oldStart]? = v.new[r.newStart]? then
    sameFront v (r.dropFront 1) + 1
  else
    0
termination_by r.oldStop - r.oldStart
decreasing_by
  simp only [Region.dropFront]
  omega

/-- Number of lines in which the two sides of a region agree from the back. -/
def sameBack (v : Versions) (r : Region) : Nat :=
  if r.oldStart < r.oldStop ∧ r.newStart < r.newStop ∧
      v.old[r.oldStop - 1]? = v.new[r.newStop - 1]? then
    sameBack v (r.dropBack 1) + 1
  else
    0
termination_by r.oldStop - r.oldStart
decreasing_by
  simp only [Region.dropBack]
  omega

end Versions
end Diff
end BackingField
