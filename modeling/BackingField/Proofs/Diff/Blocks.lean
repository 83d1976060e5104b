import BackingField.Proofs.Diff.Beginning
import BackingField.Proofs.Diff.Totals

/-!
# Blocks and hunks lead from one version to the other

What `Leads` says about the operations of a script, `BlocksLead` says about its blocks.  Hunks leave
out kept lines between them: `HunksLead` allows for lines that are the same in front of each hunk and
behind the last one.  However many lines are shown around the changes, the hunks of a diff lead from
the beginning of both versions to the end (`hunksLead_ofBlocks`), and each of them begins at the old
line that its first block names.
-/

namespace BackingField
namespace Diff

variable {v : Versions} {x y x' y' n : Nat}

/-! ### Blocks -/

@[simp] theorem Region.oldCount_add (x n newStart newStop : Nat) :
    (⟨x, x + n, newStart, newStop⟩ : Region).oldCount = n :=
  Nat.add_sub_cancel_left x n

@[simp] theorem Region.newCount_add (oldStart oldStop y n : Nat) :
    (⟨oldStart, oldStop, y, y + n⟩ : Region).newCount = n :=
  Nat.add_sub_cancel_left y n

/-- The block stands behind `x` old and `y` new lines.  A change has lines, and where it has none on
one side, its place on that side is left open. -/
inductive Block.Fits (v : Versions) (x y : Nat) : Block → Prop where
  | keep (n : Nat) (hsame : v.Same x y n) : Fits v x y ⟨⟨x, x + n, y, y + n⟩, true⟩
  | change (r : Region) (hsome : r.oldCount ≠ 0 ∨ r.newCount ≠ 0)
      (hold : r.oldCount ≠ 0 → r.oldStart = x) (hnew : r.newCount ≠ 0 → r.newStart = y) :
      Fits v x y ⟨r, false⟩

/-- The blocks lead from behind `x` old and `y` new lines to behind `x'` and `y'`. -/
def BlocksLead (v : Versions) : (x y : Nat) → List Block → (x' y' : Nat) → Prop
  | x, y, [], x', y' => x = x' ∧ y = y'
  | x, y, b :: blocks, x', y' =>
      b.Fits v x y ∧ BlocksLead v (x + b.region.oldCount) (y + b.region.newCount) blocks x' y'

/-- The first block, if there is one, names `x` as its old place. -/
def BeginsAt (x : Nat) (blocks : List Block) : Prop :=
  ∀ b ∈ blocks.head?, b.region.oldStart = x

section Lead

variable {b : Block} {blocks blocks' : List Block}

theorem blocksLead_cons : BlocksLead v x y (b :: blocks) x' y' ↔
    b.Fits v x y ∧
      BlocksLead v (x + b.region.oldCount) (y + b.region.newCount) blocks x' y' := Iff.rfl

theorem blocksLead_append : BlocksLead v x y (blocks ++ blocks') x' y' ↔
    ∃ x₁ y₁, BlocksLead v x y blocks x₁ y₁ ∧ BlocksLead v x₁ y₁ blocks' x' y' := by
  induction blocks generalizing x y with
  | nil =>
    constructor
    · exact fun h => ⟨x, y, ⟨rfl, rfl⟩, h⟩
    · rintro ⟨_, _, ⟨rfl, rfl⟩, h⟩
      exact h
  | cons b blocks ih =>
    rw [List.cons_append, blocksLead_cons, ih]
    constructor
    · rintro ⟨hb, x₁, y₁, hblocks, hblocks'⟩
      exact ⟨x₁, y₁, ⟨hb, hblocks⟩, hblocks'⟩
    · rintro ⟨x₁, y₁, ⟨hb, hblocks⟩, hblocks'⟩
      exact ⟨hb, x₁, y₁, hblocks, hblocks'⟩

theorem blocksLead_singleton : BlocksLead v x y [b] x' y' ↔
    b.Fits v x y ∧ x + b.region.oldCount = x' ∧ y + b.region.newCount = y' := Iff.rfl

theorem BeginsAt.append_congr (h : BeginsAt x (blocks ++ b :: blocks')) (b' : Block)
    (hold : b'.region.oldStart = b.region.oldStart) (blocks'' : List Block) :
    BeginsAt x (blocks ++ b' :: blocks'') := by
  cases blocks with
  | nil =>
    rintro _ ⟨⟩
    exact hold.trans (h b rfl)
  | cons first blocks =>
    rintro _ ⟨⟩
    exact h first rfl

end Lead

/-! ### The blocks of a script -/

section Script

variable {run : List Operation} {b : Block}

theorem Leads.of_keeps (h : Leads v x y run x' y') (hkeep : ∀ op ∈ run, op.action = .keep) :
    x' = x + Block.total run ∧ y' = y + Block.total run ∧ v.Same x y (Block.total run) := by
  induction run generalizing x y with
  | nil =>
    obtain ⟨rfl, rfl⟩ := h
    exact ⟨rfl, rfl, Versions.same_zero⟩
  | cons op run ih =>
    obtain ⟨hop, hrun⟩ := leads_cons.1 h
    obtain ⟨hkeepOp, hkeepRun⟩ := List.forall_mem_cons.1 hkeep
    simp only [Operation.oldCount, Operation.newCount, hkeepOp] at hrun
    obtain ⟨hold, hnew, hsame⟩ := ih hrun hkeepRun
    simp only [Block.total, sumOf] at hold hnew hsame ⊢
    exact ⟨by simpa [Nat.add_assoc] using hold, by simpa [Nat.add_assoc] using hnew,
      Versions.same_add.2 ⟨hop.same hkeepOp, hsame⟩⟩

theorem Leads.of_changes (h : Leads v x y run x' y') (hchange : ∀ op ∈ run, op.action ≠ .keep) :
    x' = x + linesWith .delete run ∧ y' = y + linesWith .insert run ∧
      (∀ op ∈ run.find? (·.action = .delete), op.old = x) ∧
      ∀ op ∈ run.find? (·.action = .insert), op.new = y := by
  induction run generalizing x y with
  | nil =>
    obtain ⟨rfl, rfl⟩ := h
    simp
  | cons op run ih =>
    obtain ⟨hop, hrun⟩ := leads_cons.1 h
    obtain ⟨hchangeOp, hchangeRun⟩ := List.forall_mem_cons.1 hchange
    obtain ⟨hold, hnew, hfirst, hfirst'⟩ := ih hrun hchangeRun
    rw [linesWith_cons, linesWith_cons]
    cases haction : op.action with
    | keep => exact absurd haction hchangeOp
    | delete =>
      simp only [Operation.oldCount, Operation.newCount, haction] at hold hnew hfirst'
      refine ⟨by simpa [Nat.add_assoc] using hold, by simpa using hnew, ?_, ?_⟩
      · simpa [haction] using hop.old (by simp [haction])
      · simpa [haction] using hfirst'
    | insert =>
      simp only [Operation.oldCount, Operation.newCount, haction] at hold hnew hfirst
      refine ⟨by simpa using hold, by simpa [Nat.add_assoc] using hnew, ?_, ?_⟩
      · simpa [haction] using hfirst
      · simpa [haction] using hop.new (by simp [haction])

/-- The block of a run of kept lines stands where the run does. -/
theorem Block.IsKeepOf.fits (h : b.IsKeepOf run) (hne : run ≠ []) (hleads : Leads v x y run x' y') :
    b.Fits v x y ∧ x + b.region.oldCount = x' ∧ y + b.region.newCount = y' := by
  obtain ⟨rfl, rfl, hsame⟩ := hleads.of_keeps h.forall_keep
  cases run with
  | nil => exact absurd rfl hne
  | cons op run =>
    obtain ⟨hop, -⟩ := leads_cons.1 hleads
    have hkeep := h.forall_keep op (by simp)
    have hregion := h.region op rfl
    rw [hop.old (by simp [hkeep]), hop.new (by simp [hkeep])] at hregion
    obtain ⟨region, isKept⟩ := b
    obtain rfl : isKept = true := h.isKept
    obtain rfl := hregion
    exact ⟨.keep _ hsame, by simp, by simp⟩

theorem find?_ne_none_of_linesWith {action : Action} (h : linesWith action run ≠ 0) :
    ∃ op, run.find? (·.action = action) = some op := by
  rw [← Option.isSome_iff_exists, List.find?_isSome]
  by_contra hnone
  refine h (linesWith_eq_zero_iff.2 fun op hop haction => ?_)
  exact absurd ⟨op, hop, by simpa using haction⟩ hnone

/-- The block of a run of changes stands where the run does. -/
theorem Block.IsChangeOf.fits (h : b.IsChangeOf run) (hne : run ≠ [])
    (hleads : Leads v x y run x' y') :
    b.Fits v x y ∧ x + b.region.oldCount = x' ∧ y + b.region.newCount = y' := by
  obtain ⟨rfl, rfl, hfirst, hfirst'⟩ := hleads.of_changes h.forall_change
  have hold : b.region.oldCount = linesWith .delete run := by
    simp [Region.oldCount, h.oldStop]
  have hnew : b.region.newCount = linesWith .insert run := by
    simp [Region.newCount, h.newStop]
  refine ⟨?_, by rw [hold], by rw [hnew]⟩
  obtain ⟨region, isKept⟩ := b
  obtain rfl : isKept = false := h.isKept
  refine .change region ?_ (fun hsome => ?_) fun hsome => ?_
  · rw [hold, hnew]
    cases run with
    | nil => exact absurd rfl hne
    | cons op run =>
      obtain ⟨hop, -⟩ := leads_cons.1 hleads
      have hcount := hop.count
      rw [linesWith_cons, linesWith_cons]
      cases haction : op.action with
      | keep => exact absurd haction (h.forall_change op (by simp))
      | delete => exact .inl (by rw [if_pos rfl]; omega)
      | insert => exact .inr (by rw [if_pos rfl]; omega)
  · rw [hold] at hsome
    obtain ⟨op, hop⟩ := find?_ne_none_of_linesWith hsome
    rw [h.old op hop, hfirst op hop]
  · rw [hnew] at hsome
    obtain ⟨op, hop⟩ := find?_ne_none_of_linesWith hsome
    rw [h.new op hop, hfirst' op hop]

/-- A run of a script becomes a block that stands where the run does. -/
theorem exists_fits_ofRun (hne : run ≠ [])
    (hchain : run.IsChain fun a b => ((a.action == .keep) == (b.action == .keep)) = true)
    (hleads : Leads v x y run x' y') :
    ∃ b, Block.ofRun run = some b ∧ b.Fits v x y ∧ x + b.region.oldCount = x' ∧
      y + b.region.newCount = y' := by
  obtain ⟨b, hb, hkept | hchanged⟩ := Block.ofRun_cases hne hchain
  · exact ⟨b, hb, hkept.fits hne hleads⟩
  · exact ⟨b, hb, hchanged.fits hne hleads⟩

theorem blocksLead_filterMap_ofRun {runs : List (List Operation)} (hne : [] ∉ runs)
    (hchain : ∀ run ∈ runs,
      run.IsChain fun a b => ((a.action == .keep) == (b.action == .keep)) = true)
    (hleads : Leads v x y runs.flatten x' y') :
    BlocksLead v x y (runs.filterMap Block.ofRun) x' y' := by
  induction runs generalizing x y with
  | nil => exact hleads
  | cons run runs ih =>
    obtain ⟨hrun, hrest⟩ := List.forall_mem_cons.1 hchain
    obtain ⟨hne', hneRest⟩ : run ≠ [] ∧ [] ∉ runs := by simpa [eq_comm] using hne
    rw [List.flatten_cons] at hleads
    obtain ⟨x₁, y₁, hfirst, hlater⟩ := leads_append.1 hleads
    obtain ⟨b, hb, hfits, rfl, rfl⟩ := exists_fits_ofRun hne' hrun hfirst
    rw [List.filterMap_cons, hb]
    exact blocksLead_cons.2 ⟨hfits, ih hneRest hrest hlater⟩

/-- The blocks of a script lead where the script does. -/
theorem blocksLead_ofScript {ops : List Operation} (hleads : Leads v x y ops x' y') :
    BlocksLead v x y (Block.ofScript ops) x' y' := by
  refine blocksLead_filterMap_ofRun (List.nil_notMem_splitBy _ ops)
    (fun run hrun => List.isChain_of_mem_splitBy hrun) ?_
  rwa [List.flatten_splitBy]

/-- Insertions that are followed by kept lines come before every deletion. -/
theorem not_deletesFirst_append {ops : List Operation} (hinsert : ∀ op ∈ run, op.action = .insert)
    (hkeep : ∀ op ∈ ops.head?, op.action = .keep) : ¬ DeletesFirst (run ++ ops) := by
  induction run with
  | nil =>
    cases ops with
    | nil => simp [DeletesFirst]
    | cons op ops => exact not_deletesFirst_keep (hkeep op rfl)
  | cons op run ih =>
    obtain ⟨hop, hrun⟩ := List.forall_mem_cons.1 hinsert
    rintro (hdelete | ⟨-, hlater⟩)
    · simp [hop] at hdelete
    · exact ih hrun hlater

/-- A run of changes without deletions only inserts. -/
theorem Block.IsChangeOf.forall_insert (h : b.IsChangeOf run)
    (hnone : run.find? (·.action = .delete) = none) : ∀ op ∈ run, op.action = .insert := by
  intro op hop
  have hdelete := List.find?_eq_none.1 hnone op hop
  cases haction : op.action with
  | keep => exact absurd haction (h.forall_change op hop)
  | delete => simp [haction] at hdelete
  | insert => rfl

/-- Behind a run of changes comes a run of kept lines or nothing. -/
theorem forall_keep_head?_flatten {runs : List (List Operation)}
    (hchange : ∀ op ∈ run, op.action ≠ .keep)
    (hbetween : (run :: runs).IsChain fun run run' =>
      ∃ hrun hrun', (((run.getLast hrun).action == .keep) == ((run'.head hrun').action == .keep)) =
        false) :
    ∀ op ∈ runs.flatten.head?, op.action = .keep := by
  cases runs with
  | nil => simp
  | cons run' runs =>
    obtain ⟨⟨hrun, hrun', hkinds⟩, -⟩ := List.isChain_cons_cons.1 hbetween
    have hlast := hchange _ (List.getLast_mem hrun)
    cases run' with
    | nil => exact absurd rfl hrun'
    | cons op run' => simpa [hlast] using hkinds

theorem beginsAt_filterMap_ofRun {runs : List (List Operation)} (hne : [] ∉ runs)
    (hchain : ∀ run ∈ runs,
      run.IsChain fun a b => ((a.action == .keep) == (b.action == .keep)) = true)
    (hbetween : runs.IsChain fun run run' =>
      ∃ hrun hrun', (((run.getLast hrun).action == .keep) == ((run'.head hrun').action == .keep)) =
        false)
    (hleads : Leads v x y runs.flatten x' y') (hstart : StartsRight x runs.flatten) :
    BeginsAt x (runs.filterMap Block.ofRun) := by
  cases runs with
  | nil => simp [BeginsAt]
  | cons run runs =>
    obtain ⟨hne', hneRest⟩ : run ≠ [] ∧ [] ∉ runs := by simpa [eq_comm] using hne
    rw [List.flatten_cons] at hleads hstart
    obtain ⟨x₁, y₁, hfirst, -⟩ := leads_append.1 hleads
    obtain ⟨b, hb, hcases⟩ := Block.ofRun_cases hne' (hchain run (by simp))
    rw [List.filterMap_cons, hb]
    rintro _ ⟨⟩
    cases run with
    | nil => exact absurd rfl hne'
    | cons op run =>
      obtain ⟨hop, -⟩ := leads_cons.1 hfirst
      rcases hcases with hkept | hchanged
      · have hkeep := hkept.forall_keep op (by simp)
        rw [hkept.region op rfl, ← hop.old (by simp [hkeep])]
      · obtain ⟨-, -, hdeleted, -⟩ := hfirst.of_changes hchanged.forall_change
        cases hfind : (op :: run).find? (·.action = .delete) with
        | some d => rw [hchanged.old d hfind, hdeleted d hfind]
        | none =>
          -- The run only inserts, so no deletion comes before the first kept lines.
          have hkeep := forall_keep_head?_flatten hchanged.forall_change hbetween
          obtain ⟨hopInsert, hrunInsert⟩ := List.forall_mem_cons.1 (hchanged.forall_insert hfind)
          rw [hchanged.old_of_insert hfind op rfl]
          exact (hstart hopInsert).resolve_right (not_deletesFirst_append hrunInsert hkeep)

/-- The first block of a script that starts right names the right place. -/
theorem beginsAt_ofScript {ops : List Operation} (hleads : Leads v x y ops x' y')
    (hstart : StartsRight x ops) : BeginsAt x (Block.ofScript ops) := by
  have hbetween := List.isChain_getLast_head_splitBy
    (fun a b : Operation => (a.action == .keep) == (b.action == .keep)) ops
  rw [← List.flatten_splitBy (fun a b => (a.action == .keep) == (b.action == .keep)) ops]
    at hleads hstart
  exact beginsAt_filterMap_ofRun (List.nil_notMem_splitBy _ ops)
    (fun run hrun => List.isChain_of_mem_splitBy hrun) hbetween hleads hstart

end Script

/-! ### Hunks -/

/-- The hunks lead from behind `x` old and `y` new lines to behind `x'` and `y'`.  In front of each
hunk and behind the last one there may be lines that are the same, and each hunk begins at the old
place that its first block names. -/
def HunksLead (v : Versions) : (x y : Nat) → List Hunk → (x' y' : Nat) → Prop
  | x, y, [], x', y' => ∃ n, v.Same x y n ∧ x + n = x' ∧ y + n = y'
  | x, y, hunk :: hunks, x', y' =>
      ∃ n x₁ y₁, v.Same x y n ∧ BeginsAt (x + n) hunk ∧
        BlocksLead v (x + n) (y + n) hunk x₁ y₁ ∧ HunksLead v x₁ y₁ hunks x' y'

/-- Blocks that are not worth showing hold lines that are the same. -/
theorem exists_same_of_not_isWorthShowing {blocks : List Block}
    (h : ¬ Hunk.isWorthShowing blocks = true) (hleads : BlocksLead v x y blocks x' y') :
    ∃ n, v.Same x y n ∧ x + n = x' ∧ y + n = y' := by
  fun_cases Hunk.isWorthShowing blocks with
  | case1 => exact ⟨0, Versions.same_zero, hleads⟩
  | case2 b =>
    obtain ⟨hfits, hold, hnew⟩ := blocksLead_singleton.1 hleads
    cases hfits with
    | keep n hsame =>
      exact ⟨n, hsame, by simpa using hold, by simpa using hnew⟩
    | change r _ _ _ => simp [Hunk.isWorthShowing] at h
  | case3 blocks hnil hone => simp [Hunk.isWorthShowing] at h

/-- Division of blocks into hunks only leaves out lines that are the same. -/
theorem hunksLead_divide {context x₁ y₁ x₂ y₂ m : Nat} {current blocks : List Block}
    (hgap : v.Same x y n) (hcurrent : BlocksLead v (x + n) (y + n) current x₁ y₁)
    (hbegins : BeginsAt (x + n) (current ++ blocks)) (hblocks : BlocksLead v x₁ y₁ blocks x₂ y₂)
    (hlast : v.Same x₂ y₂ m) :
    HunksLead v x y (Hunk.divide context current blocks) (x₂ + m) (y₂ + m) := by
  fun_induction Hunk.divide context current blocks generalizing x y n x₁ y₁ with
  | case1 current hworth =>
    obtain ⟨rfl, rfl⟩ := hblocks
    rw [List.append_nil] at hbegins
    exact ⟨n, x₁, y₁, hgap, hbegins, hcurrent, m, hlast, rfl, rfl⟩
  | case2 current hworth =>
    obtain ⟨rfl, rfl⟩ := hblocks
    obtain ⟨k, hsame, rfl, rfl⟩ := exists_same_of_not_isWorthShowing hworth hcurrent
    refine ⟨n + k + m, ?_, by omega, by omega⟩
    rw [Versions.same_add, Versions.same_add]
    exact ⟨⟨hgap, hsame⟩, by simpa [Nat.add_assoc] using hlast⟩
  | case3 current b blocks hlong ih =>
    obtain ⟨hfits, hblocks⟩ := blocksLead_cons.1 hblocks
    cases hfits with
    | change r _ _ _ => simp at hlong
    | keep k hsame =>
      -- Of the `k` kept lines `context` are shown before and behind the gap.
      simp only [Region.oldCount_add, Region.newCount_add] at hlong hblocks
      obtain ⟨j, rfl⟩ : ∃ j, k = context + j + context := ⟨k - 2 * context, by omega⟩
      obtain ⟨hfront, hback⟩ := Versions.same_add.1 hsame
      obtain ⟨hfront, hskipped⟩ := Versions.same_add.1 hfront
      refine ⟨n, x₁ + context, y₁ + context, hgap, ?_, ?_, ?_⟩
      · exact hbegins.append_congr (Block.front _ context) rfl []
      · refine blocksLead_append.2
          ⟨x₁, y₁, hcurrent, blocksLead_singleton.2 ⟨.keep _ hfront, ?_, ?_⟩⟩
        · simp [Block.front]
        · simp [Block.front]
      · have hend : ∀ z : Nat, z + (context + j + context) = z + context + j + context := by omega
        have hbackEq : Block.back ⟨⟨x₁, x₁ + (context + j + context), y₁,
            y₁ + (context + j + context)⟩, true⟩ context =
              ⟨⟨x₁ + context + j, x₁ + context + j + context, y₁ + context + j,
                y₁ + context + j + context⟩, true⟩ := by
          simp [Block.back, hend]
        rw [hbackEq] at ih ⊢
        rw [hend, hend] at hblocks
        rw [← Nat.add_assoc, ← Nat.add_assoc] at hback
        refine ih hskipped (blocksLead_singleton.2 ⟨.keep context hback, by simp, by simp⟩) ?_
          hblocks
        rintro _ ⟨⟩
        rfl
  | case4 current b blocks hshort ih =>
    rw [List.append_assoc] at ih
    exact ih hgap (blocksLead_append.2 ⟨x₁, y₁, hcurrent, blocksLead_singleton.2
      ⟨hblocks.1, rfl, rfl⟩⟩) hbegins hblocks.2

/-- Kept lines that are left out at the front are the same. -/
theorem exists_blocksLead_mapFirst {blocks : List Block} (hbegins : BeginsAt x blocks)
    (hleads : BlocksLead v x y blocks x' y') (context : Nat) :
    ∃ n, v.Same x y n ∧ BeginsAt (x + n) (mapFirst (·.trimFront context) blocks) ∧
      BlocksLead v (x + n) (y + n) (mapFirst (·.trimFront context) blocks) x' y' := by
  cases blocks with
  | nil => exact ⟨0, Versions.same_zero, hbegins, hleads⟩
  | cons b blocks =>
    obtain ⟨hfits, hblocks⟩ := blocksLead_cons.1 hleads
    cases hfits with
    | change r _ _ _ => exact ⟨0, Versions.same_zero, hbegins, hleads⟩
    | keep k hsame =>
      obtain ⟨n, m, hn, rfl⟩ : ∃ n m, k - context = n ∧ k = n + m :=
        ⟨k - context, k - (k - context), rfl, by omega⟩
      obtain ⟨hskipped, hshown⟩ := Versions.same_add.1 hsame
      simp only [Region.oldCount_add, Region.newCount_add] at hblocks
      rw [← Nat.add_assoc, ← Nat.add_assoc] at hblocks
      have htrimmed : Block.trimFront ⟨⟨x, x + (n + m), y, y + (n + m)⟩, true⟩ context =
          ⟨⟨x + n, x + n + m, y + n, y + n + m⟩, true⟩ := by
        simp [Block.trimFront, Region.dropFront, hn, Nat.add_assoc]
      refine ⟨n, hskipped, ?_, ?_⟩
      · rw [mapFirst, htrimmed]
        rintro _ ⟨⟩
        rfl
      · rw [mapFirst, htrimmed]
        refine blocksLead_cons.2 ⟨.keep m hshown, ?_⟩
        simpa using hblocks

/-- Kept lines that are left out at the back are the same. -/
theorem exists_blocksLead_mapLast {blocks : List Block} (hleads : BlocksLead v x y blocks x' y')
    (context : Nat) :
    ∃ n x₁ y₁, v.Same x₁ y₁ n ∧ x₁ + n = x' ∧ y₁ + n = y' ∧
      BlocksLead v x y (mapLast (·.trimBack context) blocks) x₁ y₁ := by
  fun_induction mapLast (·.trimBack context) blocks generalizing x y with
  | case1 => exact ⟨0, x', y', Versions.same_zero, rfl, rfl, hleads⟩
  | case2 b =>
    obtain ⟨hfits, rfl, rfl⟩ := blocksLead_singleton.1 hleads
    cases hfits with
    | change r _ _ _ => exact ⟨0, _, _, Versions.same_zero, rfl, rfl, hleads⟩
    | keep k hsame =>
      obtain ⟨n, m, hn, rfl⟩ : ∃ n m, k - context = n ∧ k = m + n :=
        ⟨k - context, k - (k - context), rfl, by omega⟩
      obtain ⟨hshown, hskipped⟩ := Versions.same_add.1 hsame
      have htrimmed : Block.trimBack ⟨⟨x, x + (m + n), y, y + (m + n)⟩, true⟩ context =
          ⟨⟨x, x + m, y, y + m⟩, true⟩ := by
        rw [Block.trimBack, if_pos rfl, Region.oldCount_add, hn]
        simp [Region.dropBack, ← Nat.add_assoc]
      refine ⟨n, x + m, y + m, hskipped, ?_, ?_, ?_⟩
      · simp [Nat.add_assoc]
      · simp [Nat.add_assoc]
      · rw [htrimmed]
        exact blocksLead_singleton.2 ⟨.keep m hshown, by simp, by simp⟩
  | case3 b blocks hmore ih =>
    obtain ⟨hfits, hblocks⟩ := blocksLead_cons.1 hleads
    obtain ⟨n, x₁, y₁, hskipped, hold, hnew, hlead⟩ := ih hblocks
    exact ⟨n, x₁, y₁, hskipped, hold, hnew, blocksLead_cons.2 ⟨hfits, hlead⟩⟩

theorem Block.oldStart_trimBack (b : Block) (n : Nat) :
    (b.trimBack n).region.oldStart = b.region.oldStart := by
  unfold trimBack
  split
  · rfl
  · rfl

theorem BeginsAt.mapLast {blocks : List Block} (h : BeginsAt x blocks) (context : Nat) :
    BeginsAt x (mapLast (·.trimBack context) blocks) := by
  cases blocks with
  | nil => exact h
  | cons b blocks =>
    cases blocks with
    | nil =>
      rintro _ ⟨⟩
      exact (b.oldStart_trimBack context).trans (h b rfl)
    | cons b' blocks =>
      rintro _ ⟨⟩
      exact h b rfl

/-- The hunks of blocks lead where the blocks do. -/
theorem hunksLead_ofBlocks {blocks : List Block} (hbegins : BeginsAt x blocks)
    (hleads : BlocksLead v x y blocks x' y') (context : Nat) :
    HunksLead v x y (Hunk.ofBlocks context blocks) x' y' := by
  obtain ⟨n, hgap, hbegins', hfront⟩ := exists_blocksLead_mapFirst hbegins hleads context
  obtain ⟨m, x₁, y₁, hlast, rfl, rfl, hback⟩ := exists_blocksLead_mapLast hfront context
  exact hunksLead_divide hgap ⟨rfl, rfl⟩ (hbegins'.mapLast context) hback hlast

/-- The hunks of a diff lead from the beginning of both versions to the end. -/
theorem Versions.hunksLead_blocks (v : Versions) (context : Nat) :
    HunksLead v 0 0 (Hunk.ofBlocks context v.blocks) v.old.size v.new.size := by
  have hleads : Leads v 0 0 (compact v v.script) v.old.size v.new.size :=
    leads_compact v.leads_script
  exact hunksLead_ofBlocks (beginsAt_ofScript hleads (startsRight_compact v))
    (blocksLead_ofScript hleads) context

end Diff
end BackingField
