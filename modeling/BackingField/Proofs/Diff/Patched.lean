import BackingField.Proofs.Diff.Blocks
import BackingField.Proofs.Diff.Reading

/-!
# A diff as a patch

The hunks of a diff, read back from its text and put at the old places that their headers give, make
the new text of the old one (`unified_patch`).  What headers say about the number of lines can be
wrong for hunks at the beginning and at the end of a file, because the places of deletions on the new
side and of insertions on the old side are not kept up by compaction.
-/

namespace BackingField
namespace Diff

variable {v : Versions} {x y x' y' n : Nat} {b : Block} {blocks : List Block}

/-! ### Lines of blocks -/

theorem length_toList_extract {lines : Array Text} {i j : Nat} (h : j ≤ lines.size) :
    (lines.extract i j).toList.length = j - i := by
  rw [Array.length_toList, Array.size_extract, Nat.min_eq_left h]

theorem extract_of_count_eq_zero {lines : Array Text} {i j : Nat} (h : j - i = 0) :
    (lines.extract i j).toList = [] := by
  rw [Array.toList_extract, List.extract_eq_take_drop, h, List.take_zero]

/-- The place of a range matters only if the range has lines. -/
theorem toList_extract_eq {lines : Array Text} {start stop i : Nat}
    (h : stop - start ≠ 0 → start = i) :
    (lines.extract start stop).toList = (lines.extract i (i + (stop - start))).toList := by
  by_cases hcount : stop - start = 0
  · rw [extract_of_count_eq_zero hcount, extract_of_count_eq_zero (by omega)]
  · have hstop : start + (stop - start) = stop := by omega
    rw [← h hcount, hstop]

theorem Block.Fits.oldLines_eq (h : b.Fits v x y) :
    Hunk.oldLines v b.region = (v.old.extract x (x + b.region.oldCount)).toList := by
  cases h with
  | keep n hsame => simp [Hunk.oldLines]
  | change r hsome hold hnew => exact toList_extract_eq hold

theorem Block.Fits.newLines_eq (h : b.Fits v x y) :
    Hunk.newLines v b.region = (v.new.extract y (y + b.region.newCount)).toList := by
  cases h with
  | keep n hsame => simp [Hunk.newLines]
  | change r hsome hold hnew => exact toList_extract_eq hnew

/-- A block shows the old lines that it stands on. -/
theorem Block.Fits.before_eq (h : b.Fits v x y) :
    ((b.entries v).filter (·.1 ≠ .insert)).map Prod.snd =
      (v.old.extract x (x + b.region.oldCount)).toList := by
  rw [← h.oldLines_eq]
  unfold entries
  split
  · simp [List.filter_map, Function.comp_def]
  · simp [List.filter_map, Function.comp_def]

/-- A block shows the new lines that it stands on. -/
theorem Block.Fits.after_eq (h : b.Fits v x y) :
    ((b.entries v).filter (·.1 ≠ .delete)).map Prod.snd =
      (v.new.extract y (y + b.region.newCount)).toList := by
  cases h with
  | keep n hsame =>
    have hentries : Block.entries v ⟨⟨x, x + n, y, y + n⟩, true⟩ =
        (v.new.extract y (y + n)).toList.map (Action.keep, ·) := by
      rw [← hsame.extract_eq]
      rfl
    rw [hentries, Region.newCount_add]
    generalize (v.new.extract y (y + n)).toList = lines
    simp [List.filter_map, Function.comp_def]
  | change r hsome hold hnew =>
    rw [← (Block.Fits.change (v := v) r hsome hold hnew).newLines_eq]
    simp [entries, List.filter_map, Function.comp_def]

theorem BlocksLead.le (h : BlocksLead v x y blocks x' y') : x ≤ x' ∧ y ≤ y' := by
  induction blocks generalizing x y with
  | nil => exact ⟨Nat.le_of_eq h.1, Nat.le_of_eq h.2⟩
  | cons b blocks ih =>
    obtain ⟨hold, hnew⟩ := ih (blocksLead_cons.1 h).2
    omega

/-- Blocks show the lines of both versions that they lead past. -/
theorem BlocksLead.before_after_eq (h : BlocksLead v x y blocks x' y') :
    ((blocks.flatMap (Block.entries v)).filter (·.1 ≠ .insert)).map Prod.snd =
        (v.old.extract x x').toList ∧
      ((blocks.flatMap (Block.entries v)).filter (·.1 ≠ .delete)).map Prod.snd =
        (v.new.extract y y').toList := by
  induction blocks generalizing x y with
  | nil =>
    obtain ⟨rfl, rfl⟩ := h
    exact ⟨(extract_of_count_eq_zero (Nat.sub_self _)).symm,
      (extract_of_count_eq_zero (Nat.sub_self _)).symm⟩
  | cons b blocks ih =>
    obtain ⟨hfits, hblocks⟩ := blocksLead_cons.1 h
    obtain ⟨hbefore, hafter⟩ := ih hblocks
    obtain ⟨hold, hnew⟩ := hblocks.le
    rw [List.flatMap_cons, List.filter_append, List.filter_append, List.map_append, List.map_append,
      hbefore, hafter, hfits.before_eq, hfits.after_eq,
      toList_extract_append (Nat.le_add_right x _) hold,
      toList_extract_append (Nat.le_add_right y _) hnew]
    exact ⟨rfl, rfl⟩

/-! ### Applying hunks -/

theorem HunksLead.le {hunks : List Hunk} (h : HunksLead v x y hunks x' y') : x ≤ x' ∧ y ≤ y' := by
  induction hunks generalizing x y with
  | nil =>
    obtain ⟨n, -, rfl, rfl⟩ := h
    omega
  | cons hunk hunks ih =>
    obtain ⟨n, x₁, y₁, -, -, hblocks, hhunks⟩ := h
    have hle := hblocks.le
    have hle' := ih hhunks
    omega

/-- Lines that are the same may be added in front. -/
theorem HunksLead.of_same {hunks : List Hunk} (hsame : v.Same x y n)
    (h : HunksLead v (x + n) (y + n) hunks x' y') : HunksLead v x y hunks x' y' := by
  cases hunks with
  | nil =>
    obtain ⟨m, hsame', rfl, rfl⟩ := h
    exact ⟨n + m, Versions.same_add.2 ⟨hsame, hsame'⟩, by omega, by omega⟩
  | cons hunk hunks =>
    obtain ⟨m, x₁, y₁, hsame', hbegins, hblocks, hhunks⟩ := h
    rw [Nat.add_assoc] at hbegins hblocks
    rw [Nat.add_assoc] at hblocks
    exact ⟨n + m, x₁, y₁, Versions.same_add.2 ⟨hsame, hsame'⟩, hbegins, hblocks, hhunks⟩

/-- A hunk that leads somewhere shows the lines of both versions that it leads past, from the old
place on that its header gives. -/
theorem BlocksLead.shown?_cases {hunk : Hunk} (h : BlocksLead v x y hunk x' y')
    (hbegins : BeginsAt x hunk) (hold : x' ≤ v.old.size) (hnew : y' ≤ v.new.size) :
    Hunk.shown? v hunk = none ∧ hunk.flatMap (Block.entries v) = [] ∧ x = x' ∧ y = y' ∨
      ∃ shown, Hunk.shown? v hunk = some shown ∧ shown.entries = hunk.flatMap (Block.entries v) ∧
        shown.old.place = x ∧ shown.before = (v.old.extract x x').toList ∧
        shown.after = (v.new.extract y y').toList ∧ x + shown.before.length = x' ∧
        y + shown.after.length = y' := by
  obtain ⟨hbefore, hafter⟩ := h.before_after_eq
  have hle := h.le
  have hbeforeLength := congrArg List.length hbefore
  have hafterLength := congrArg List.length hafter
  rw [length_toList_extract hold] at hbeforeLength
  rw [length_toList_extract hnew] at hafterLength
  cases hunk with
  | nil => exact .inl ⟨rfl, rfl, h⟩
  | cons first rest =>
    rw [Hunk.shown?]
    split
    · next hnone =>
      rw [hnone] at hbeforeLength hafterLength
      simp only [List.filter_nil, List.map_nil, List.length_nil] at hbeforeLength hafterLength
      exact .inl ⟨rfl, hnone, by omega, by omega⟩
    · refine .inr ⟨_, rfl, rfl, hbegins first rfl, hbefore, hafter, ?_, ?_⟩
      · rw [Patch.Hunk.before, hbeforeLength]
        omega
      · rw [Patch.Hunk.after, hafterLength]
        omega

theorem drop_eq_toList_extract (lines : Array Text) (i : Nat) :
    lines.toList.drop i = (lines.extract i lines.size).toList := by
  rw [Array.toList_extract, List.extract_eq_take_drop, List.take_of_length_le (by simp)]

/-- Hunks that lead to the end of both versions turn the rest of the old one into that of the new
one. -/
theorem HunksLead.applied?_eq {hunks : List Hunk}
    (h : HunksLead v x y hunks v.old.size v.new.size) :
    Patch.applied? v.old.toList x (hunks.filterMap (Hunk.shown? v)) =
      some (v.new.toList.drop y) := by
  induction hunks generalizing x y with
  | nil =>
    obtain ⟨n, hsame, hold, hnew⟩ := h
    rw [List.filterMap_nil, Patch.applied?, drop_eq_toList_extract, drop_eq_toList_extract, ← hold,
      ← hnew, hsame.extract_eq]
  | cons hunk hunks ih =>
    obtain ⟨n, x₁, y₁, hsame, hbegins, hblocks, hhunks⟩ := h
    obtain ⟨hold, hnew⟩ := hhunks.le
    obtain ⟨hold', hnew'⟩ := hblocks.le
    rcases hblocks.shown?_cases hbegins hold hnew with ⟨hnone, -, rfl, rfl⟩ |
      ⟨shown, hshown, -, hplace, hbefore, hafter, hpassed, -⟩
    · rw [List.filterMap_cons, hnone]
      exact ih (hhunks.of_same hsame)
    · rw [List.filterMap_cons, hshown]
      have hprefix : shown.before <+: v.old.toList.drop (x + n) := by
        rw [hbefore, Array.toList_extract, List.extract_eq_take_drop]
        exact List.take_prefix _ _
      have hplaced : x ≤ x + n ∧ x + n ≤ v.old.toList.length ∧
          shown.before <+: v.old.toList.drop (x + n) := by
        refine ⟨Nat.le_add_right x n, ?_, hprefix⟩
        rw [Array.length_toList]
        omega
      have hgap : v.old.toList.extract x (x + n) = (v.new.extract y (y + n)).toList := by
        rw [← hsame.extract_eq, Array.toList_extract]
      rw [Patch.applied?, hplace, if_pos hplaced, hpassed, ih hhunks, Option.map_some, hgap, hafter,
        drop_eq_toList_extract, drop_eq_toList_extract,
        toList_extract_append (Nat.le_add_right y n) (hnew'.trans hnew),
        toList_extract_append hnew' hnew, List.append_assoc]

/-! ### Headers -/

/-- Kept lines name their places on both sides. -/
theorem Block.Fits.region_of_isKept (h : b.Fits v x y) (hkept : b.isKept = true) :
    b.region.oldStart = x ∧ b.region.newStart = y ∧ b.region.oldStop = x + b.region.oldCount ∧
      b.region.newStop = y + b.region.newCount := by
  cases h with
  | keep n hsame => simp
  | change r hsome hold hnew => simp at hkept

/-- A change shows lines, and none of them is kept. -/
theorem Block.Fits.entries_of_change (h : b.Fits v x y) (hkept : b.isKept = false)
    (hold : x + b.region.oldCount ≤ v.old.size) (hnew : y + b.region.newCount ≤ v.new.size) :
    b.entries v ≠ [] ∧ ∀ e ∈ b.entries v, e.1 ≠ .keep := by
  have holdLines := h.oldLines_eq
  have hnewLines := h.newLines_eq
  cases h with
  | keep n hsame => simp at hkept
  | change r hsome _ _ =>
    simp only at hold hnew holdLines hnewLines
    constructor
    · intro hnil
      simp [entries, holdLines, hnewLines] at hnil
      omega
    · intro e he
      rcases List.mem_append.1 he with he | he
      · obtain ⟨line, -, rfl⟩ := List.mem_map.1 he
        simp
      · obtain ⟨line, -, rfl⟩ := List.mem_map.1 he
        simp

theorem Block.Fits.isKept_of_head (h : b.Fits v x y) (hold : x + b.region.oldCount ≤ v.old.size)
    (hnew : y + b.region.newCount ≤ v.new.size)
    (hframe : ∀ e ∈ (b.entries v).head?, e.1 = .keep) : b.isKept = true := by
  by_contra hchange
  obtain ⟨hsome, hkeep⟩ := h.entries_of_change (by simpa using hchange) hold hnew
  exact hkeep _ (List.head_mem hsome) (hframe _ (List.head?_eq_some_head hsome))

theorem Block.Fits.isKept_of_getLast (h : b.Fits v x y)
    (hold : x + b.region.oldCount ≤ v.old.size) (hnew : y + b.region.newCount ≤ v.new.size)
    (hframe : ∀ e ∈ (b.entries v).getLast?, e.1 = .keep) : b.isKept = true := by
  by_contra hchange
  obtain ⟨hsome, hkeep⟩ := h.entries_of_change (by simpa using hchange) hold hnew
  exact hkeep _ (List.getLast_mem hsome) (hframe _ (List.getLast?_eq_some_getLast hsome))

/-- The header of a hunk that begins and ends with kept lines counts its lines. -/
theorem BlocksLead.counted_of_framed {hunk : Hunk} {shown : Patch.Hunk}
    (h : BlocksLead v x y hunk x' y') (hold : x' ≤ v.old.size) (hnew : y' ≤ v.new.size)
    (hshown : Hunk.shown? v hunk = some shown) (hframed : shown.Framed) : shown.Counted := by
  obtain ⟨hbefore, hafter⟩ := h.before_after_eq
  cases hunk with
  | nil => simp [Hunk.shown?] at hshown
  | cons first rest =>
    rw [Hunk.shown?] at hshown
    split at hshown
    · simp at hshown
    · obtain rfl := Option.some.inj hshown
      obtain ⟨hhead, hgetLast⟩ := hframed
      have hsplit := List.dropLast_append_getLast (List.cons_ne_nil first rest)
      obtain ⟨hfirst, hrest⟩ := blocksLead_cons.1 h
      obtain ⟨hle, hle'⟩ := hrest.le
      rw [← hsplit] at h
      obtain ⟨x₁, y₁, -, hend⟩ := blocksLead_append.1 h
      obtain ⟨hlast, rfl, rfl⟩ := blocksLead_singleton.1 hend
      have hkeptFirst : first.isKept = true := by
        refine hfirst.isKept_of_head (hle.trans hold) (hle'.trans hnew) fun e he => hhead e ?_
        simp [Option.mem_def.1 he]
      have hkeptLast :
          ((first :: rest).getLast (List.cons_ne_nil first rest)).isKept = true := by
        refine hlast.isKept_of_getLast hold hnew fun e he => hgetLast e ?_
        have hentries := congrArg (List.flatMap (Block.entries v)) hsplit
        rw [List.flatMap_append, List.flatMap_singleton] at hentries
        simp only
        rw [← hentries, List.getLast?_append, Option.mem_def.1 he]
        rfl
      obtain ⟨hfirstOld, hfirstNew, -, -⟩ := hfirst.region_of_isKept hkeptFirst
      obtain ⟨-, -, hstopOld, hstopNew⟩ := hlast.region_of_isKept hkeptLast
      constructor
      · simp only [Patch.Hunk.before, hbefore, hfirstOld, hstopOld, length_toList_extract hold]
      · simp only [Patch.Hunk.after, hafter, hfirstNew, hstopNew, length_toList_extract hnew]

theorem HunksLead.counted_of_framed {hunks : List Hunk}
    (h : HunksLead v x y hunks v.old.size v.new.size) :
    ∀ shown ∈ hunks.filterMap (Hunk.shown? v), shown.Framed → shown.Counted := by
  induction hunks generalizing x y with
  | nil => simp
  | cons hunk hunks ih =>
    obtain ⟨n, x₁, y₁, -, -, hblocks, hhunks⟩ := h
    obtain ⟨hold, hnew⟩ := hhunks.le
    intro shown hmem hframed
    obtain ⟨hunk', hhunk', hshown⟩ := List.mem_filterMap.1 hmem
    rcases List.mem_cons.1 hhunk' with rfl | hlater
    · exact hblocks.counted_of_framed hold hnew hshown hframed
    · exact ih hhunks shown (List.mem_filterMap.2 ⟨hunk', hlater, hshown⟩) hframed

/-! ### Diffs -/

/-- Hunks that a diff shows. -/
def shownHunks (before after : Text) (context : Nat) : List Patch.Hunk :=
  (Hunk.ofBlocks context (Versions.ofTexts before after).blocks).filterMap
    (Hunk.shown? (Versions.ofTexts before after))

/-- The hunks of a diff can be read from its text. -/
theorem exists_read?_unified (path before after : Text) (context : Nat) :
    ∃ body, (unified path before after context).text =
        "--- ".toList ++ path ++ "\n+++ ".toList ++ path ++ "\n".toList ++ body ∧
      Patch.read? body = some (shownHunks before after context) := by
  refine ⟨_, rfl, Hunk.read?_flatMap_text ?_ ?_ _⟩
  · intro line hline
    exact isLine_of_mem_lines (t := before) (by simpa [Versions.ofTexts] using hline)
  · intro line hline
    exact isLine_of_mem_lines (t := after) (by simpa [Versions.ofTexts] using hline)

/-- The hunks of a diff, read from its text, lead from the old text to the new one when each of them
is put at the old place that its header gives; all kept and deleted lines stand there.  The header of
a hunk between kept lines counts its lines, and the diff is accepted as a patch just when all headers
do. -/
theorem unified_patch (path before after : Text) (context : Nat) :
    ∃ body hunks, (unified path before after context).text =
        "--- ".toList ++ path ++ "\n+++ ".toList ++ path ++ "\n".toList ++ body ∧
      Patch.read? body = some hunks ∧
      Patch.applied? (lines before) 0 hunks = some (lines after) ∧
      (∀ h ∈ hunks, h.Framed → h.Counted) ∧
      (Patch.patch? body before = some after ↔ ∀ h ∈ hunks, h.Counted) := by
  obtain ⟨body, htext, hread⟩ := exists_read?_unified path before after context
  have hleads := (Versions.ofTexts before after).hunksLead_blocks context
  have happlied : Patch.applied? (lines before) 0 (shownHunks before after context) =
      some (lines after) := hleads.applied?_eq
  refine ⟨body, shownHunks before after context, htext, hread, happlied,
    hleads.counted_of_framed, ?_⟩
  rw [Patch.patch?, hread, Option.bind_eq_bind, Option.bind_some]
  split
  · next hcounted => exact iff_of_true (by simp [happlied, flatten_lines]) hcounted
  · next hwrong => exact iff_of_false (by simp) hwrong

/-- A header can be wrong: the insertion at the end of this diff carries the old place that it had
before compaction, and the deletion at its beginning the new one. -/
theorem unified_patch_refused :
    (unified "p".toList "a\nb\n".toList "b\nb\n".toList 3).text =
        "--- p\n+++ p\n@@ -1 +2 @@\n-a\n b\n+b\n".toList ∧
      Patch.patch? "@@ -1 +2 @@\n-a\n b\n+b\n".toList "a\nb\n".toList = none := by
  decide +kernel

end Diff
end BackingField
