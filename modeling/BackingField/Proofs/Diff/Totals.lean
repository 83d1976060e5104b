import BackingField.Diff.Unified
import BackingField.Proofs.Diff.Scripts
import Mathlib.Algebra.BigOperators.Group.List.Basic
import Mathlib.Algebra.GroupWithZero.Nat
import Mathlib.Data.List.SplitBy

/-!
# How many lines come and go

The statistics of a diff are taken from the blocks of a compact script.  Compaction moves and merges
operations but loses no deleted or inserted line (`linesWith_compact`), and neither does the division
into blocks, so the statistics are those of the script that was found first (`stats_unified`).  All
other lines of both texts are kept by the script (`exists_kept`), so two texts are different just when
lines come or go (`filesChanged_unified`, `linesWith_script_self`).
-/

namespace BackingField
namespace Diff

theorem sumOf_eq_sum {α : Type} (number : α → Nat) (l : List α) :
    sumOf number l = (l.map number).sum := by
  induction l with
  | nil => rfl
  | cons a l ih => rw [sumOf, ih, List.map_cons, List.sum_cons]

@[simp] theorem sumOf_append {α : Type} (number : α → Nat) (l l' : List α) :
    sumOf number (l ++ l') = sumOf number l + sumOf number l' := by
  simp only [sumOf_eq_sum, List.map_append, List.sum_append]

theorem length_le_sumOf {α : Type} {number : α → Nat} {l : List α} (h : ∀ a ∈ l, 0 < number a) :
    l.length ≤ sumOf number l := by
  rw [sumOf_eq_sum, ← List.length_map number]
  exact List.length_le_sum_of_one_le _ (List.forall_mem_map.2 h)

/-- Number of lines that the operations of one kind deal with. -/
def linesWith (action : Action) (ops : List Operation) : Nat :=
  Block.total (ops.filter (·.action = action))

@[simp] theorem linesWith_nil (action : Action) : linesWith action [] = 0 := rfl

theorem linesWith_cons (action : Action) (op : Operation) (ops : List Operation) :
    linesWith action (op :: ops) =
      (if op.action = action then op.count else 0) + linesWith action ops := by
  by_cases h : op.action = action
  · simp [linesWith, Block.total, sumOf, h]
  · simp [linesWith, Block.total, h]

@[simp] theorem linesWith_append (action : Action) (ops ops' : List Operation) :
    linesWith action (ops ++ ops') = linesWith action ops + linesWith action ops' := by
  rw [linesWith, List.filter_append]
  exact sumOf_append _ _ _

@[simp] theorem linesWith_reverse (action : Action) (ops : List Operation) :
    linesWith action ops.reverse = linesWith action ops := by
  simp only [linesWith, Block.total, sumOf_eq_sum, List.filter_reverse, List.map_reverse,
    List.sum_reverse]

theorem linesWith_eq_zero_iff {action : Action} {ops : List Operation} :
    linesWith action ops = 0 ↔ ∀ op ∈ ops, op.action = action → op.count = 0 := by
  rw [linesWith, Block.total, sumOf_eq_sum, List.sum_eq_zero_iff_forall_eq_nat, List.forall_mem_map]
  simp only [List.mem_filter, decide_eq_true_eq, and_imp]

/-! ### Compaction -/

section Compaction

variable {action : Action}

theorem linesWith_growAfter (haction : action ≠ .keep) (old new n : Nat) (ops : List Operation) :
    linesWith action (growAfter old new n ops) = linesWith action ops := by
  cases ops with
  | nil => simp [growAfter, linesWith_cons, haction.symm]
  | cons op ops =>
    by_cases h : op.action = .keep
    · simp [growAfter, h, linesWith_cons, haction.symm]
    · simp [growAfter, h, linesWith_cons, haction.symm]

theorem linesWith_growBefore (haction : action ≠ .keep) (old new n : Nat) (ops : List Operation) :
    linesWith action (growBefore old new n ops) = linesWith action ops := by
  cases ops with
  | nil => simp [growBefore, linesWith_cons, haction.symm]
  | cons op ops =>
    by_cases h : op.action = .keep
    · simp [growBefore, h, linesWith_cons, haction.symm]
    · simp [growBefore, h, linesWith_cons, haction.symm]

/-- Number of lines that the operations of one kind deal with, around the focus and in it. -/
def Focus.linesWith (action : Action) (f : Focus) : Nat :=
  Diff.linesWith action f.before + Diff.linesWith action (f.current :: f.after)

/-- On its way to the front an operation loses no line that changes. -/
theorem Focus.linesWith_up (haction : action ≠ .keep) (v : Versions) (f : Focus) :
    (f.up v).linesWith action = f.linesWith action := by
  fun_induction Focus.up v f with
  | case1 current after => rfl
  | case2 op before current after hkeep hnone ih =>
    rw [ih]
    simp [Focus.linesWith, linesWith_cons, hkeep, haction.symm]
  | case3 op before current after hkeep hsome n hn => rfl
  | case4 op before current after hkeep hsome n hn after' current' hall ih =>
    rw [ih]
    simp [Focus.linesWith, linesWith_cons, hkeep, haction.symm, current', after',
      linesWith_growAfter haction]
  | case5 op before current after hkeep hsome n hn after' current' hpart ih =>
    rw [ih]
    simp [Focus.linesWith, linesWith_cons, hkeep, haction.symm, current', after',
      linesWith_growAfter haction]
  | case6 op before current after hkeep hsame ih =>
    -- Two operations of one kind become one with the lines of both.
    rw [ih]
    by_cases h : op.action = action
    · simp only [Focus.linesWith, linesWith_cons, h, if_true, ← hsame]
      omega
    · simp [Focus.linesWith, linesWith_cons, h, ← hsame]
  | case7 op before current after hkeep hother ih =>
    rw [ih]
    simp only [Focus.linesWith, linesWith_cons]
    omega

/-- Nor does it on its way to the back. -/
theorem Focus.linesWith_down (haction : action ≠ .keep) (v : Versions) (f : Focus) :
    (f.down v).linesWith action = f.linesWith action := by
  fun_induction Focus.down v f with
  | case1 before current => rfl
  | case2 before current op after hkeep hnone ih =>
    rw [ih]
    simp [Focus.linesWith, linesWith_cons, hkeep, haction.symm]
  | case3 before current op after hkeep hsome n hn => rfl
  | case4 before current op after hkeep hsome n hn before' current' hall ih =>
    rw [ih]
    simp [Focus.linesWith, linesWith_cons, hkeep, haction.symm, current', before',
      linesWith_growBefore haction]
  | case5 before current op after hkeep hsome n hn before' current' hpart ih =>
    rw [ih]
    simp [Focus.linesWith, linesWith_cons, hkeep, haction.symm, current', before',
      linesWith_growBefore haction]
  | case6 before current op after hkeep hsame ih =>
    rw [ih]
    by_cases h : op.action = action
    · simp only [Focus.linesWith, linesWith_cons, h, if_true, ← hsame]
      omega
    · simp [Focus.linesWith, linesWith_cons, h, ← hsame]
  | case7 before current op after hkeep hother ih =>
    rw [ih]
    simp only [Focus.linesWith, linesWith_cons]
    omega

theorem linesWith_settle (haction : action ≠ .keep) (v : Versions) (moved : Action) (visits : Nat)
    (before after : List Operation) :
    linesWith action (settle v moved visits before after) =
      linesWith action before + linesWith action after := by
  fun_induction settle v moved visits before after with
  | case1 before after => simp
  | case2 visits before hvisits => simp
  | case3 visits before op after hmoved f ih =>
    have hfocus : f.linesWith action = linesWith action before + linesWith action (op :: after) := by
      rw [Focus.linesWith_down haction, Focus.linesWith_up haction]
      rfl
    rw [ih, ← hfocus]
    simp only [Focus.linesWith, linesWith_cons]
    omega
  | case4 visits before op after hother ih =>
    rw [ih]
    simp only [linesWith_cons]
    omega

/-- Compaction loses no line that changes. -/
theorem linesWith_compact (haction : action ≠ .keep) (v : Versions) (ops : List Operation) :
    linesWith action (compact v ops) = linesWith action ops := by
  simp only [compact, linesWith_settle haction, linesWith_nil, Nat.zero_add]

end Compaction

/-! ### Blocks -/

namespace Block

/-- The operations of a run all keep lines or all change them. -/
theorem forall_keep_or_forall_change {run : List Operation}
    (h : run.IsChain fun a b => ((a.action == .keep) == (b.action == .keep)) = true) :
    (∀ op ∈ run, op.action = .keep) ∨ ∀ op ∈ run, op.action ≠ .keep := by
  induction run with
  | nil => exact .inl (by simp)
  | cons a run ih =>
    cases run with
    | nil =>
      by_cases ha : a.action = .keep
      · exact .inl (by simpa using ha)
      · exact .inr (by simpa using ha)
    | cons b run =>
      obtain ⟨hab, hrun⟩ := List.isChain_cons_cons.1 h
      have hiff : a.action = .keep ↔ b.action = .keep := by
        by_cases ha : a.action = .keep
        · simpa [ha] using hab
        · simpa [ha] using hab
      rcases ih hrun with hkeep | hchange
      · refine .inl (List.forall_mem_cons.2 ⟨?_, hkeep⟩)
        exact hiff.2 (hkeep b (by simp))
      · refine .inr (List.forall_mem_cons.2 ⟨?_, hchange⟩)
        exact fun ha => hchange b (by simp) (hiff.1 ha)

/-- The block holds the kept lines of a run. -/
structure IsKeepOf (b : Block) (run : List Operation) : Prop where
  isKept : b.isKept = true
  forall_keep : ∀ op ∈ run, op.action = .keep
  region : ∀ op ∈ run.head?,
    b.region = ⟨op.old, op.old + total run, op.new, op.new + total run⟩

/-- The block holds the changes of a run: as many lines on each side as go and come in it, from the
place of the first that goes and of the first that comes. -/
structure IsChangeOf (b : Block) (run : List Operation) : Prop where
  isKept : b.isKept = false
  forall_change : ∀ op ∈ run, op.action ≠ .keep
  oldStop : b.region.oldStop = b.region.oldStart + linesWith .delete run
  newStop : b.region.newStop = b.region.newStart + linesWith .insert run
  old : ∀ op ∈ run.find? (·.action = .delete), b.region.oldStart = op.old
  new : ∀ op ∈ run.find? (·.action = .insert), b.region.newStart = op.new
  /-- If no line goes, the first operation says where. -/
  old_of_insert : run.find? (·.action = .delete) = none →
    ∀ op ∈ run.head?, b.region.oldStart = op.old

theorem isKeepOf_ofRun {op : Operation} {run : List Operation}
    (h : ∀ a ∈ op :: run, a.action = .keep) :
    ∃ b, ofRun (op :: run) = some b ∧ b.IsKeepOf (op :: run) := by
  have hkept : (op :: run).filter (·.action = .keep) = op :: run := by
    rw [List.filter_eq_self]
    intro a ha
    simpa using h a ha
  refine ⟨⟨⟨op.old, op.old + total (op :: run), op.new, op.new + total (op :: run)⟩, true⟩, ?_,
    rfl, h, ?_⟩
  · unfold ofRun
    rw [hkept]
  · rintro _ ⟨⟩
    rfl

theorem isChangeOf_ofRun {run : List Operation} (hne : run ≠ [])
    (h : ∀ op ∈ run, op.action ≠ .keep) : ∃ b, ofRun run = some b ∧ b.IsChangeOf run := by
  have hkept : run.filter (·.action = .keep) = [] := by
    rw [List.filter_eq_nil_iff]
    intro op hop
    simpa using h op hop
  have htotal (action : Action) (ops : List Operation)
      (hops : run.filter (·.action = action) = ops) :
      linesWith action run = total ops ∧ run.find? (·.action = action) = ops.head? := by
    rw [linesWith, ← List.head?_filter, hops]
    exact ⟨rfl, rfl⟩
  unfold ofRun
  rw [hkept]
  cases hdeleted : run.filter (·.action = .delete) with
  | cons d deleted =>
    obtain ⟨hdeletes, hfirst⟩ := htotal _ _ hdeleted
    cases hinserted : run.filter (·.action = .insert) with
    | cons i inserted =>
      obtain ⟨hinserts, hfirst'⟩ := htotal _ _ hinserted
      exact ⟨_, rfl, rfl, h, by simp [hdeletes], by simp [hinserts], by simp [hfirst],
        by simp [hfirst'], by simp [hfirst]⟩
    | nil =>
      obtain ⟨hinserts, hfirst'⟩ := htotal _ _ hinserted
      exact ⟨_, rfl, rfl, h, by simp [hdeletes], by simp [hinserts, total, sumOf], by simp [hfirst],
        by simp [hfirst'], by simp [hfirst]⟩
  | nil =>
    obtain ⟨hdeletes, hfirst⟩ := htotal _ _ hdeleted
    cases run with
    | nil => exact absurd rfl hne
    | cons op run =>
      -- Only insertions are left, so the first operation is the first of them.
      have hinsert : op.action = .insert := by
        cases haction : op.action with
        | keep => exact absurd haction (h op (by simp))
        | delete => simp [haction] at hdeleted
        | insert => rfl
      have hinserted : (op :: run).filter (·.action = .insert) =
          op :: run.filter (·.action = .insert) := by simp [hinsert]
      obtain ⟨hinserts, hfirst'⟩ := htotal _ _ hinserted
      rw [hinserted]
      exact ⟨_, rfl, rfl, h, by simp [hdeletes, total, sumOf], by simp [hinserts], by simp [hfirst],
        by simp [hfirst'], by simp⟩

/-- A run of operations that all keep lines or all change them becomes a block. -/
theorem ofRun_cases {run : List Operation} (hne : run ≠ [])
    (h : run.IsChain fun a b => ((a.action == .keep) == (b.action == .keep)) = true) :
    ∃ b, ofRun run = some b ∧ (b.IsKeepOf run ∨ b.IsChangeOf run) := by
  rcases forall_keep_or_forall_change h with hkeep | hchange
  · cases run with
    | nil => exact absurd rfl hne
    | cons op run =>
      obtain ⟨b, hb, hkept⟩ := isKeepOf_ofRun hkeep
      exact ⟨b, hb, .inl hkept⟩
  · obtain ⟨b, hb, hchanged⟩ := isChangeOf_ofRun hne hchange
    exact ⟨b, hb, .inr hchanged⟩

end Block

/-- The statistics of blocks count the lines that go and come in the script. -/
theorem ofBlocks_ofScript (ops : List Operation) :
    (LineStats.ofBlocks (Block.ofScript ops)).linesRemoved = linesWith .delete ops ∧
      (LineStats.ofBlocks (Block.ofScript ops)).linesAdded = linesWith .insert ops := by
  have hruns (runs : List (List Operation)) (hne : [] ∉ runs)
      (hchain : ∀ run ∈ runs,
        run.IsChain fun a b => ((a.action == .keep) == (b.action == .keep)) = true) :
      (LineStats.ofBlocks (runs.filterMap Block.ofRun)).linesRemoved =
          linesWith .delete runs.flatten ∧
        (LineStats.ofBlocks (runs.filterMap Block.ofRun)).linesAdded =
          linesWith .insert runs.flatten := by
    induction runs with
    | nil => exact ⟨rfl, rfl⟩
    | cons run runs ih =>
      obtain ⟨hrun, hrest⟩ := List.forall_mem_cons.1 hchain
      have hne' : [] ∉ runs := fun hmem => hne (List.mem_cons_of_mem run hmem)
      have hrunNe : run ≠ [] := by
        rintro rfl
        exact hne (by simp)
      obtain ⟨hremoved, hadded⟩ := ih hne' hrest
      obtain ⟨b, hb, hcases⟩ := Block.ofRun_cases hrunNe hrun
      simp only [List.filterMap_cons, hb, List.flatten_cons, linesWith_append, ← hremoved, ← hadded]
      rcases hcases with hkept | hchanged
      · have hnone {action : Action} (haction : action ≠ .keep) : linesWith action run = 0 :=
          linesWith_eq_zero_iff.2 fun op hop => by simp [hkept.forall_keep op hop, haction.symm]
        simp [LineStats.ofBlocks, hkept.isKept, hnone]
      · simp [LineStats.ofBlocks, hchanged.isKept, sumOf, Region.oldCount, Region.newCount,
          hchanged.oldStop, hchanged.newStop]
  have hall := hruns (ops.splitBy fun a b => (a.action == .keep) == (b.action == .keep))
    (List.nil_notMem_splitBy _ ops) fun run hrun => List.isChain_of_mem_splitBy hrun
  rwa [List.flatten_splitBy] at hall

/-- The statistics of a diff count the lines that go and come in the script that was found. -/
theorem stats_unified (path before after : Text) (context : Nat) :
    (unified path before after context).stats.linesRemoved =
        linesWith .delete (Versions.ofTexts before after).script ∧
      (unified path before after context).stats.linesAdded =
        linesWith .insert (Versions.ofTexts before after).script := by
  obtain ⟨hremoved, hadded⟩ := ofBlocks_ofScript
    (compact (Versions.ofTexts before after) (Versions.ofTexts before after).script)
  rw [linesWith_compact (by simp)] at hremoved hadded
  exact ⟨hremoved, hadded⟩

/-! ### What a script keeps -/

section Kept

variable {v : Versions} {x y x' y' : Nat} {ops : List Operation}

/-- Lines that a script keeps. -/
def keptLines (v : Versions) (ops : List Operation) : List Text :=
  (ops.filter (·.action = .keep)).flatMap fun op =>
    (v.old.extract op.old (op.old + op.count)).toList

theorem keptLines_cons (v : Versions) (op : Operation) (ops : List Operation) :
    keptLines v (op :: ops) =
      (if op.action = .keep then (v.old.extract op.old (op.old + op.count)).toList else []) ++
        keptLines v ops := by
  by_cases h : op.action = .keep
  · simp [keptLines, h]
  · simp [keptLines, h]

theorem toList_extract_append {lines : Array Text} {i j k : Nat} (hij : i ≤ j) (hjk : j ≤ k) :
    (lines.extract i k).toList = (lines.extract i j).toList ++ (lines.extract j k).toList := by
  rw [← Array.toList_append, Array.extract_append_extract, Nat.min_eq_left hij,
    Nat.max_eq_right hjk]

/-- The kept lines stand in this order in both versions. -/
theorem Leads.keptLines_sublist (h : Leads v x y ops x' y') :
    (keptLines v ops).Sublist (v.old.extract x x').toList ∧
      (keptLines v ops).Sublist (v.new.extract y y').toList := by
  induction ops generalizing x y with
  | nil => exact ⟨List.nil_sublist _, List.nil_sublist _⟩
  | cons op ops ih =>
    obtain ⟨hop, hops⟩ := leads_cons.1 h
    obtain ⟨hold, hnew⟩ := ih hops
    obtain ⟨hle, hle'⟩ := hops.le
    rw [keptLines_cons, toList_extract_append (Nat.le_add_right x op.oldCount) hle,
      toList_extract_append (Nat.le_add_right y op.newCount) hle']
    by_cases hkeep : op.action = .keep
    · have holdCount : op.oldCount = op.count := by simp [Operation.oldCount, hkeep]
      have hnewCount : op.newCount = op.count := by simp [Operation.newCount, hkeep]
      have hsame := (hop.same hkeep).extract_eq
      rw [if_pos hkeep, hop.old (by simp [hkeep]), holdCount, hnewCount, ← hsame]
      rw [holdCount] at hold
      rw [hnewCount] at hnew
      exact ⟨(List.append_sublist_append_left _).2 hold, (List.append_sublist_append_left _).2 hnew⟩
    · rw [if_neg hkeep, List.nil_append]
      exact ⟨hold.trans (List.sublist_append_right _ _), hnew.trans (List.sublist_append_right _ _)⟩

/-- Every line that a script goes past is kept, or it goes or comes. -/
theorem Leads.linesWith_add_length (h : Leads v x y ops x' y') (hold : x' ≤ v.old.size)  :
    x + linesWith .delete ops + (keptLines v ops).length = x' ∧
      y + linesWith .insert ops + (keptLines v ops).length = y' := by
  induction ops generalizing x y with
  | nil => exact h
  | cons op ops ih =>
    obtain ⟨hop, hops⟩ := leads_cons.1 h
    obtain ⟨hdeleted, hinserted⟩ := ih hops
    have hle := hops.le.1
    rw [keptLines_cons, linesWith_cons, linesWith_cons, List.length_append]
    cases haction : op.action with
    | keep =>
      have hplace := hop.old (by simp [haction])
      simp [Operation.oldCount, Operation.newCount, haction] at hdeleted hinserted hle ⊢
      omega
    | delete =>
      simp [Operation.oldCount, Operation.newCount, haction] at hdeleted hinserted ⊢
      omega
    | insert =>
      simp [Operation.oldCount, Operation.newCount, haction] at hdeleted hinserted ⊢
      omega

end Kept

/-- Of the lines of two texts, some are kept by the script that is found, and all others go or
come. -/
theorem exists_kept (path before after : Text) (context : Nat) :
    ∃ kept : List Text, kept.Sublist (lines before) ∧ kept.Sublist (lines after) ∧
      (unified path before after context).stats.linesRemoved + kept.length =
        (lines before).length ∧
      (unified path before after context).stats.linesAdded + kept.length =
        (lines after).length := by
  obtain ⟨hremoved, hadded⟩ := stats_unified path before after context
  have hleads := (Versions.ofTexts before after).leads_script
  obtain ⟨hbefore, hafter⟩ := hleads.keptLines_sublist
  obtain ⟨hdeleted, hinserted⟩ := hleads.linesWith_add_length (Nat.le_refl _)
  rw [hremoved, hadded]
  refine ⟨keptLines (Versions.ofTexts before after) (Versions.ofTexts before after).script,
    ?_, ?_, ?_, ?_⟩
  · simpa [Versions.ofTexts] using hbefore
  · simpa [Versions.ofTexts] using hafter
  · simpa [Versions.ofTexts] using hdeleted
  · simpa [Versions.ofTexts] using hinserted

/-- Of two different texts the diff has a change to show. -/
theorem filesChanged_unified {before after : Text} (hne : before ≠ after) (path : Text)
    (context : Nat) : (unified path before after context).stats.filesChanged = 1 := by
  obtain ⟨kept, hbefore, hafter, hremoved, hadded⟩ := exists_kept path before after context
  have hchanged : 0 < (unified path before after context).stats.linesAdded ∨
      0 < (unified path before after context).stats.linesRemoved := by
    by_contra hnone
    -- All lines are kept, on both sides.
    have hlines : lines before = lines after := by
      rw [← hbefore.eq_of_length (by omega), ← hafter.eq_of_length (by omega)]
    exact hne (by rw [← flatten_lines before, hlines, flatten_lines])
  exact if_pos hchanged

/-! ### Equal texts -/

end Diff
end BackingField
