/-!
# Stable sorting

Sorting by insertion.  An element is put in front of the first one it may stand before, so elements
of equal rank keep their order.  Where a list is in order already, each insertion is a single step.
-/

namespace BackingField

/-- Put an element into a list in front of the first element that it may stand before. -/
def insertBy {α : Type} (le : α → α → Bool) (a : α) : List α → List α
  | [] => [a]
  | b :: rest => if le a b then a :: b :: rest else b :: insertBy le a rest

/-- The elements of a list in order, those of equal rank as they came. -/
def sortBy {α : Type} (le : α → α → Bool) : List α → List α
  | [] => []
  | a :: rest => insertBy le a (sortBy le rest)

end BackingField
