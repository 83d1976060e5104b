import BackingField.Diff.Region

/-!
# The place to divide a region

The search goes from both corners of a region at once.  After `d` steps it knows, for every diagonal
`k` (old lines minus new lines passed), how many old lines a path with `d` changes can get past.
Where a path from the front and a path from the back meet, the region is divided.
-/

namespace BackingField
namespace Diff

/-- How far paths have come, by diagonal: one cell for each diagonal from `-bound` to `bound`. -/
structure Frontier where
  bound : Nat
  cells : Array Nat

namespace Frontier

/-- The frontier before the first step. -/
def start (bound : Nat) : Frontier :=
  ⟨bound, Array.replicate (2 * bound + 1) 0⟩

/-- Old lines passed on a diagonal, none if no path has come there. -/
def reach (f : Frontier) (k : Int) : Nat :=
  f.cells.getD (k + f.bound).toNat 0

/-- The frontier with another number of old lines passed on a diagonal. -/
def set (f : Frontier) (k : Int) (n : Nat) : Frontier :=
  { f with cells := f.cells.setIfInBounds (k + f.bound).toNat n }

/-- Old lines passed on diagonal `k` by one more change: a new line from the diagonal above, or an
old line from the diagonal below, whichever gets further. -/
def extended (f : Frontier) (d : Nat) (k : Int) : Nat :=
  if k = -d ∨ (k ≠ d ∧ f.reach (k - 1) < f.reach (k + 1)) then
    f.reach (k + 1)
  else
    f.reach (k - 1) + 1

end Frontier

/-- A place in a region, as old and new lines passed from its front. -/
structure Place where
  old : Int
  new : Int

/-- Diagonals that `d` changes can lead to, from the highest. -/
def diagonals (d : Nat) : List Int :=
  (List.range (d + 1)).map fun (i : Nat) => (d : Int) - 2 * i

namespace Versions

/-- Extend the path from the front on diagonal `k`.  The search is over when it meets a path from the
back. -/
def stepForward (v : Versions) (r : Region) (d : Nat) (backward forward : Frontier) (k : Int) :
    Except Place Frontier :=
  let delta : Int := (r.oldCount : Int) - r.newCount
  let x := forward.extended d k
  let y : Int := x - k
  let snake :=
    if x < r.oldCount ∧ 0 ≤ y ∧ y < r.newCount then
      v.sameFront { r with oldStart := r.oldStart + x, newStart := r.newStart + y.toNat }
    else 0
  let forward := forward.set k (x + snake)
  if delta % 2 = 1 ∧ (k - delta).natAbs + 1 ≤ d ∧
      r.oldCount ≤ x + snake + backward.reach (delta - k) then
    .error ⟨x, y⟩
  else
    .ok forward

/-- Extend the path from the back on diagonal `k`.  The search is over when it meets a path from the
front. -/
def stepBackward (v : Versions) (r : Region) (d : Nat) (forward backward : Frontier) (k : Int) :
    Except Place Frontier :=
  let delta : Int := (r.oldCount : Int) - r.newCount
  let x := backward.extended d k
  let y : Int := x - k
  let snake :=
    if x < r.oldCount ∧ 0 ≤ y ∧ y < r.newCount then
      v.sameBack { r with oldStop := r.oldStop - x, newStop := r.newStop - y.toNat }
    else 0
  let backward := backward.set k (x + snake)
  if delta % 2 = 0 ∧ (k - delta).natAbs ≤ d ∧
      r.oldCount ≤ x + snake + forward.reach (delta - k) then
    .error ⟨(r.oldCount : Int) - (x + snake), (r.newCount : Int) - (y + snake)⟩
  else
    .ok backward

/-- One more change on every path, first from the front and then from the back. -/
def stepBoth (v : Versions) (r : Region) (frontiers : Frontier × Frontier) (d : Nat) :
    Except Place (Frontier × Frontier) := do
  let (forward, backward) := frontiers
  let forward ← (diagonals d).foldlM (v.stepForward r d backward) forward
  let backward ← (diagonals d).foldlM (v.stepBackward r d forward) backward
  return (forward, backward)

/-- The place where the paths from both corners of a region meet. -/
def meeting? (v : Versions) (r : Region) : Option Place :=
  let steps := (r.count + 1) / 2
  let start := Frontier.start (steps + 1)
  let search := (List.range (steps + 1)).foldlM (v.stepBoth r) (start, start)
  match search with
  | .error place => some place
  | .ok _ => none

end Versions
end Diff
end BackingField
