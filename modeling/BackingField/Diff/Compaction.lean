import BackingField.Diff.Script

/-!
# Compact scripts

A script that is found by dividing can hold the same change in several pieces.  Compaction moves
every deletion, and then every insertion, first as far to the front and then as far to the back as
it goes.  On its way it merges with operations of its own kind, changes places with the other kind
of change, and an insertion slides along kept lines that repeat its own.

Only the operation that moves and the lines right beside it are adjusted; operations that change
places keep their indices.
-/

namespace BackingField
namespace Diff

/-- A script with one operation in focus. -/
structure Focus where
  /-- Operations before it, the nearest first. -/
  before : List Operation
  current : Operation
  /-- Operations after it, the nearest first. -/
  after : List Operation

/-- Number of operations and of their lines. -/
def weight (ops : List Operation) : Nat :=
  sumOf (fun op => op.count + 1) ops

/-- Add `n` kept lines in front of the operations after the focus. -/
def growAfter (old new n : Nat) : List Operation → List Operation
  | op :: ops =>
      if op.action = .keep then
        { op with old := op.old - n, new := op.new - n, count := op.count + n } :: ops
      else
        ⟨.keep, old, new, n⟩ :: op :: ops
  | [] => [⟨.keep, old, new, n⟩]

/-- Add `n` kept lines behind the operations before the focus. -/
def growBefore (old new n : Nat) : List Operation → List Operation
  | op :: ops =>
      if op.action = .keep then
        { op with count := op.count + n } :: ops
      else
        ⟨.keep, old, new, n⟩ :: op :: ops
  | [] => [⟨.keep, old, new, n⟩]

/-- Lines that an operation repeats at the end of the kept lines before it.  Only an insertion
slides. -/
def slideUp (v : Versions) (kept current : Operation) : Nat :=
  if current.action = .insert then
    v.sameBack ⟨kept.old, kept.old + kept.count, current.new, current.new + current.count⟩
  else
    0

/-- Lines that an operation repeats at the beginning of the kept lines after it.  Only an insertion
slides. -/
def slideDown (v : Versions) (kept current : Operation) : Nat :=
  if current.action = .insert then
    v.sameFront ⟨kept.old, kept.old + kept.count, current.new, current.new + current.count⟩
  else
    0

/-- Move the operation in focus as far to the front as it goes. -/
def Focus.up (v : Versions) (f : Focus) : Focus :=
  match f with
  | ⟨[], current, after⟩ => ⟨[], current, after⟩
  | ⟨op :: before, current, after⟩ =>
      if op.action = .keep then
        if op.count = 0 then
          Focus.up v ⟨before, current, after⟩
        else
          let n := slideUp v op current
          if n = 0 then
            ⟨op :: before, current, after⟩
          else
            let after := growAfter (op.old + op.count - n) (current.new + current.count - n) n after
            let current := { current with old := current.old - n, new := current.new - n }
            if op.count - n = 0 then
              Focus.up v ⟨before, current, after⟩
            else
              Focus.up v ⟨{ op with count := op.count - n } :: before, current, after⟩
      else if op.action = current.action then
        Focus.up v ⟨before, { op with count := op.count + current.count }, after⟩
      else
        Focus.up v ⟨before, current, op :: after⟩
termination_by weight f.before
decreasing_by
  all_goals
    simp only [weight, sumOf]
    omega

/-- Move the operation in focus as far to the back as it goes. -/
def Focus.down (v : Versions) (f : Focus) : Focus :=
  match f with
  | ⟨before, current, []⟩ => ⟨before, current, []⟩
  | ⟨before, current, op :: after⟩ =>
      if op.action = .keep then
        if op.count = 0 then
          Focus.down v ⟨before, current, after⟩
        else
          let n := slideDown v op current
          if n = 0 then
            ⟨before, current, op :: after⟩
          else
            let before := growBefore op.old current.new n before
            let current := { current with old := current.old + n, new := current.new + n }
            if op.count - n = 0 then
              Focus.down v ⟨before, current, after⟩
            else
              Focus.down v
                ⟨before, current,
                  ⟨.keep, op.old + n, op.new + n, op.count - n⟩ :: after⟩
      else if op.action = current.action then
        Focus.down v ⟨before, { current with count := current.count + op.count }, after⟩
      else
        Focus.down v ⟨op :: before, current, after⟩
termination_by weight f.after
decreasing_by
  all_goals
    simp only [weight, sumOf]
    omega

/-- Move all operations of one kind, from the first to the last.  Each operation is visited once,
except that the operations behind a merged one are visited again. -/
def settle (v : Versions) (action : Action) :
    (visits : Nat) → (before after : List Operation) → List Operation
  | 0, before, after => before.reverse ++ after
  | _, before, [] => before.reverse
  | visits + 1, before, op :: after =>
      if op.action = action then
        let f := (Focus.up v ⟨before, op, after⟩).down v
        settle v action visits (f.current :: f.before) f.after
      else
        settle v action visits (op :: before) after

/-- Bound on the visits of a pass: for every operation that can be merged away, once through all. -/
def visitBound (ops : List Operation) : Nat :=
  (ops.length + 1) * (weight ops + 1)

/-- Compact form of a script. -/
def compact (v : Versions) (ops : List Operation) : List Operation :=
  let ops := settle v .delete (visitBound ops) [] ops
  settle v .insert (visitBound ops) [] ops

end Diff
end BackingField
