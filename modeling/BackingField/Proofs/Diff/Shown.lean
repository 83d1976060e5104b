import BackingField.Proofs.Diff.Patched

/-!
# What a diff shows is what its statistics count

The hunks of a diff show every line that the diff deletes or inserts once, with the place where it
stands (`unified_shows_changes`).  They are made from blocks of kept lines that are cut and regrouped
for the number of lines around the changes; the changes themselves stay as they are
(`flatMap_ofBlocks`), so their number does not depend on it.
-/

namespace BackingField
namespace Diff

/-! ### Lines with their places -/

namespace Patch

variable {action : Action}

end Patch

/-! ### The changes of blocks -/

/-- Lines that a block deletes, with their places. -/
def Block.deleted (v : Versions) (b : Block) : List (Text × Nat) :=
  if b.isKept then [] else (Hunk.oldLines v b.region).zipIdx b.region.oldStart

/-- Lines that a block inserts, with their places. -/
def Block.inserted (v : Versions) (b : Block) : List (Text × Nat) :=
  if b.isKept then [] else (Hunk.newLines v b.region).zipIdx b.region.newStart

section Changes

variable {v : Versions} {x y x' y' : Nat} {b : Block} {blocks : List Block}

end Changes

/-! ### Hunks keep the changes -/

section OfBlocks

variable {α : Type} {f : Block → List α}

end OfBlocks

/-! ### Diffs -/

end Diff
end BackingField
