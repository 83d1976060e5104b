import BackingField.Diff.Hunk

/-!
# Unified diffs

The text that shows how two versions of a file differ, and the numbers of lines that come and go.
The numbers are taken from all changes, so they do not depend on how many lines are shown around
them.
-/

namespace BackingField
namespace Diff

/-- How many files and lines changed. -/
structure LineStats where
  filesChanged : Nat := 0
  linesAdded : Nat := 0
  linesRemoved : Nat := 0
deriving DecidableEq

namespace LineStats

/-- Totals of two statistics. -/
def add (a b : LineStats) : LineStats :=
  ⟨a.filesChanged + b.filesChanged, a.linesAdded + b.linesAdded, a.linesRemoved + b.linesRemoved⟩

/-- Statistics in words. -/
def summary (s : LineStats) : Text :=
  "Diff: ".toList ++ Text.ofNat s.filesChanged ++ " file(s) changed, ".toList ++
    Text.ofNat s.linesAdded ++ " line(s) added, ".toList ++
    Text.ofNat s.linesRemoved ++ " line(s) removed\n".toList

/-- Statistics of the blocks of one file. -/
def ofBlocks (blocks : List Block) : LineStats :=
  let changes := blocks.filter fun b => !b.isKept
  let added := sumOf (fun b => b.region.newCount) changes
  let removed := sumOf (fun b => b.region.oldCount) changes
  ⟨if 0 < added ∨ 0 < removed then 1 else 0, added, removed⟩

/-- Totals after each of a sequence of statistics. -/
def totals (start : LineStats) : List LineStats → List LineStats
  | [] => []
  | s :: rest => start.add s :: totals (start.add s) rest

end LineStats

/-- A diff and its statistics. -/
structure Report where
  text : Text
  stats : LineStats

/-- Blocks in which two versions agree and differ. -/
def Versions.blocks (v : Versions) : List Block :=
  Block.ofScript (compact v v.script)

/-- Unified diff of two texts under the name of a file, with up to `context` kept lines around each
change.  The two lines with the name stand at the top even if nothing changed. -/
def unified (path before after : Text) (context : Nat) : Report :=
  let v := Versions.ofTexts before after
  let blocks := v.blocks
  let names := "--- ".toList ++ path ++ "\n+++ ".toList ++ path ++ "\n".toList
  ⟨names ++ (Hunk.ofBlocks context blocks).flatMap (Hunk.text v), LineStats.ofBlocks blocks⟩

/-- The diff as it is printed, with three lines around each change, and nothing if no line
changed. -/
def printed (path before after : Text) : Report :=
  let report := unified path before after 3
  if 0 < report.stats.filesChanged then report else { report with text := [] }

end Diff
end BackingField
