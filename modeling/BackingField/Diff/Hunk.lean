import BackingField.Diff.Compaction

/-!
# Blocks and hunks

A compact script is read as an alternation of blocks: kept lines, and changes, where all deletions
and insertions between two runs of kept lines count as one.  Blocks are grouped into hunks, each
with at most the given number of kept lines around its changes.
-/

namespace BackingField
namespace Diff

/-- Lines that stay, or old lines with the new ones that take their place. -/
structure Block where
  region : Region
  isKept : Bool
deriving DecidableEq

namespace Block

/-- Total number of lines of operations. -/
def total (ops : List Operation) : Nat :=
  sumOf Operation.count ops

/-- The block of a run of operations that all keep lines or all change them.  Its place is that of
the first deletion on the old side and of the first insertion on the new side. -/
def ofRun (run : List Operation) : Option Block :=
  let kept := run.filter (·.action = .keep)
  let deleted := run.filter (·.action = .delete)
  let inserted := run.filter (·.action = .insert)
  match kept, deleted, inserted with
  | op :: _, _, _ =>
      some ⟨⟨op.old, op.old + total kept, op.new, op.new + total kept⟩, true⟩
  | [], d :: _, i :: _ =>
      some ⟨⟨d.old, d.old + total deleted, i.new, i.new + total inserted⟩, false⟩
  | [], d :: _, [] => some ⟨⟨d.old, d.old + total deleted, d.new, d.new⟩, false⟩
  | [], [], i :: _ => some ⟨⟨i.old, i.old, i.new, i.new + total inserted⟩, false⟩
  | [], [], [] => none

/-- Blocks of a script. -/
def ofScript (ops : List Operation) : List Block :=
  (ops.splitBy fun a b => (a.action == .keep) == (b.action == .keep)).filterMap ofRun

/-- First `n` lines of a block of kept lines. -/
def front (b : Block) (n : Nat) : Block :=
  { b with region :=
    { b.region with oldStop := b.region.oldStart + n, newStop := b.region.newStart + n } }

/-- Last `n` lines of a block of kept lines. -/
def back (b : Block) (n : Nat) : Block :=
  { b with region :=
    { b.region with oldStart := b.region.oldStop - n, newStart := b.region.newStop - n } }

/-- A block at the beginning of a script: of kept lines, only the last `n` count. -/
def trimFront (b : Block) (n : Nat) : Block :=
  if b.isKept then { b with region := b.region.dropFront (b.region.oldCount - n) } else b

/-- A block at the end of a script: of kept lines, only the first `n` count. -/
def trimBack (b : Block) (n : Nat) : Block :=
  if b.isKept then { b with region := b.region.dropBack (b.region.oldCount - n) } else b

end Block

/-- Apply a function to the first element. -/
def mapFirst {α : Type} (f : α → α) : List α → List α
  | [] => []
  | a :: as => f a :: as

/-- Apply a function to the last element. -/
def mapLast {α : Type} (f : α → α) : List α → List α
  | [] => []
  | [a] => [f a]
  | a :: as => a :: mapLast f as

/-- Consecutive blocks that are shown together. -/
abbrev Hunk := List Block

namespace Hunk

/-- Whether blocks hold a change, as far as their number tells. -/
def isWorthShowing : List Block → Bool
  | [] => false
  | [b] => !b.isKept
  | _ => true

/-- Divide blocks at runs of more than `2 * context` kept lines. -/
def divide (context : Nat) (current : List Block) : List Block → List Hunk
  | [] => if isWorthShowing current then [current] else []
  | b :: blocks =>
      if b.isKept ∧ 2 * context < b.region.oldCount then
        (current ++ [b.front context]) :: divide context [b.back context] blocks
      else
        divide context (current ++ [b]) blocks

/-- Hunks of a list of blocks, with up to `context` kept lines before and after their changes. -/
def ofBlocks (context : Nat) (blocks : List Block) : List Hunk :=
  divide context [] (mapLast (·.trimBack context) (mapFirst (·.trimFront context) blocks))

/-- Lines of the old version that a region covers. -/
def oldLines (v : Versions) (r : Region) : List Text :=
  (v.old.extract r.oldStart r.oldStop).toList

/-- Lines of the new version that a region covers. -/
def newLines (v : Versions) (r : Region) : List Text :=
  (v.new.extract r.newStart r.newStop).toList

/-- Lines of a block with their marks. -/
def blockLines (v : Versions) (b : Block) : List Text :=
  if b.isKept then
    (oldLines v b.region).map (' ' :: ·)
  else
    (oldLines v b.region).map ('-' :: ·) ++ (newLines v b.region).map ('+' :: ·)

/-- A marked line as it is written.  A line without an end is given one, and a note that says so. -/
def writtenLine (line : Text) : Text :=
  if isEnded line then line else line ++ "\n\\ No newline at end of file\n".toList

/-- A range of lines in a header, counted from one.  An empty range is given by the line before. -/
def range (start stop : Nat) : Text :=
  match stop - start with
  | 0 => Text.ofNat start ++ ",0".toList
  | 1 => Text.ofNat (start + 1)
  | n => Text.ofNat (start + 1) ++ ",".toList ++ Text.ofNat n

/-- Header of a hunk that goes from the first to the last of two regions. -/
def header (first last : Region) : Text :=
  "@@ -".toList ++ range first.oldStart last.oldStop ++ " +".toList ++
    range first.newStart last.newStop ++ " @@\n".toList

/-- Text of a hunk, empty if it has no lines. -/
def text (v : Versions) (hunk : Hunk) : Text :=
  match hunk, hunk.flatMap (blockLines v) with
  | [], _ => []
  | _, [] => []
  | first :: rest, written =>
      header first.region ((first :: rest).getLast (by simp)).region ++ written.flatMap writtenLine

end Hunk
end Diff
end BackingField
