import BackingField.Diff.Search

/-!
# Edit scripts

A script is a list of operations that leads from the old lines to the new ones: lines that stay,
lines that go and lines that come.  It is found by dividing the region of what differs until one
side of it is empty.
-/

namespace BackingField
namespace Diff

/-- What an operation does with its lines. -/
inductive Action where
  | keep
  | delete
  | insert
deriving DecidableEq

/-- Keep, delete or insert `count` lines at a place of the old and the new version. -/
structure Operation where
  action : Action
  old : Nat
  new : Nat
  count : Nat
deriving DecidableEq

/-- Sum of a number over a list. -/
def sumOf {α : Type} (number : α → Nat) : List α → Nat
  | [] => 0
  | a :: as => number a + sumOf number as

/-- Keep lines, unless there are none to keep. -/
def keepOf (old new count : Nat) : List Operation :=
  if count = 0 then [] else [⟨.keep, old, new, count⟩]

namespace Region

/-- Delete all old lines of a region. -/
def deletion (r : Region) : Operation :=
  ⟨.delete, r.oldStart, r.newStart, r.oldCount⟩

/-- Insert all new lines of a region. -/
def insertion (r : Region) : Operation :=
  ⟨.insert, r.oldStart, r.newStart, r.newCount⟩

/-- The two parts of a region divided at a place that lies in it and is neither of its corners. -/
def divide? (r : Region) (place : Place) : Option (Region × Region) :=
  let x := r.oldStart + place.old.toNat
  let y := r.newStart + place.new.toNat
  if 0 ≤ place.old ∧ 0 ≤ place.new ∧ x ≤ r.oldStop ∧ y ≤ r.newStop ∧
      0 < place.old + place.new ∧ place.old + place.new < r.count then
    some (⟨r.oldStart, x, r.newStart, y⟩, ⟨x, r.oldStop, y, r.newStop⟩)
  else
    none

theorem count_lt_of_divide? {r left right : Region} {place : Place}
    (h : r.divide? place = some (left, right)) : left.count < r.count ∧ right.count < r.count := by
  unfold divide? at h
  simp only at h
  split at h
  · next hplace =>
    simp only [Option.some.injEq, Prod.mk.injEq] at h
    obtain ⟨rfl, rfl⟩ := h
    simp only [count, oldCount, newCount] at hplace ⊢
    omega
  · simp at h

end Region

namespace Versions

theorem count_trimmed_le (r : Region) (front back : Nat) :
    ((r.dropFront front).dropBack back).count ≤ r.count := by
  simp only [Region.count, Region.oldCount, Region.newCount, Region.dropFront, Region.dropBack]
  omega

/-- Script for a region.  Lines that agree at its front and at its back are kept, and what is left is
divided where the search says.  Without such a place all old lines go and all new ones come. -/
def scriptOf (v : Versions) (r : Region) : List Operation :=
  let front := v.sameFront r
  let afterFront := r.dropFront front
  let back := v.sameBack afterFront
  let inner := afterFront.dropBack back
  let changes :=
    if inner.oldCount = 0 ∧ inner.newCount = 0 then
      []
    else if inner.newCount = 0 then
      [inner.deletion]
    else if inner.oldCount = 0 then
      [inner.insertion]
    else
      match _h : (v.meeting? inner).bind inner.divide? with
      | some (left, right) => scriptOf v left ++ scriptOf v right
      | none => [inner.deletion, inner.insertion]
  keepOf r.oldStart r.newStart front ++ changes ++ keepOf inner.oldStop inner.newStop back
termination_by r.count
decreasing_by
  all_goals
    obtain ⟨place, -, hdivide⟩ := Option.bind_eq_some_iff.1 _h
    have hlt := Region.count_lt_of_divide? hdivide
    have hle : inner.count ≤ r.count := count_trimmed_le r front back
    omega

/-- Script that leads from the old version to the new one. -/
def script (v : Versions) : List Operation :=
  v.scriptOf v.whole

end Versions
end Diff
end BackingField
