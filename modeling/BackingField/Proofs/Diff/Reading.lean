import BackingField.Proofs.Diff.Patch

/-!
# Reading hunks back

The text of hunks is read back as the hunks that were written (`read?_flatMap_text`): the headers
with the places and counts that they give, and the lines with their marks, whatever ends they have.
-/

namespace BackingField
namespace Diff

/-! ### Lines -/

/-- Characters that do not end a line. -/
def isInner (c : Char) : Bool :=
  !(c == '\n' || c == '\r')

/-- Ends of lines. -/
def IsEnd (e : Text) : Prop :=
  e = "\n".toList ∨ e = "\r\n".toList ∨ e = "\r".toList

/-- A single line, with or without an end. -/
def IsLine (line : Text) : Prop :=
  ∃ s e, line = s ++ e ∧ Text.Only isInner s ∧ (e = [] ∨ IsEnd e)

section Lines

variable {s e t u line : Text}

theorem IsEnd.isLine (h : IsEnd e) : IsLine e :=
  ⟨[], e, rfl, Text.only_nil, .inr h⟩

theorem IsLine.cons {c : Char} (hc : isInner c = true) (h : IsLine line) : IsLine (c :: line) := by
  obtain ⟨s, e, rfl, hs, he⟩ := h
  exact ⟨c :: s, e, rfl, Text.only_cons.2 ⟨hc, hs⟩, he⟩

theorem isLine_of_mem_lines (h : line ∈ lines t) : IsLine line := by
  fun_induction lines t generalizing line with
  | case1 => simp at h
  | case2 t ih =>
    rcases List.mem_cons.1 h with rfl | hmem
    · exact IsEnd.isLine (.inr (.inl rfl))
    · exact ih hmem
  | case3 c t hpair hend ih =>
    rcases List.mem_cons.1 h with rfl | hmem
    · rcases hend with rfl | rfl
      · exact IsEnd.isLine (.inl rfl)
      · exact IsEnd.isLine (.inr (.inr rfl))
    · exact ih hmem
  | case4 c t hpair hinner hlines ih =>
    obtain rfl := List.mem_singleton.1 h
    exact IsLine.cons (by simpa [isInner] using hinner) ⟨[], [], rfl, Text.only_nil, .inl rfl⟩
  | case5 c t hpair hinner first rest hlines ih =>
    rcases List.mem_cons.1 h with rfl | hmem
    · exact IsLine.cons (by simpa [isInner] using hinner) (ih (by simp [hlines]))
    · exact ih (by simp [hlines, hmem])

theorem lines_cons {c : Char} (hc : isInner c = true) {rest : List Text}
    (h : lines t = line :: rest) : lines (c :: t) = (c :: line) :: rest := by
  have hends : ¬ (c = '\n' ∨ c = '\r') := by simpa [isInner] using hc
  rw [lines, if_neg hends, h]
  rintro t' rfl
  simp at hends

/-- A line with an end is the first of what begins with it.  A lone carriage return must not be
followed by a line feed. -/
theorem lines_append (hs : Text.Only isInner s) (he : IsEnd e) (hu : Text.Stops (· == '\n') u) :
    lines (s ++ e ++ u) = (s ++ e) :: lines u := by
  induction s with
  | nil =>
    rcases he with rfl | rfl | rfl
    · simp [lines]
    · simp [lines]
    · cases u with
      | nil => simp [lines]
      | cons c u =>
        have hc : c ≠ '\n' := by simpa using hu
        simp [lines, hc]
  | cons c s ih =>
    obtain ⟨hc, hs⟩ := Text.only_cons.1 hs
    exact lines_cons hc (ih hs)

theorem isEnded_append (he : IsEnd e) : isEnded (s ++ e) = true := by
  rcases he with rfl | rfl | rfl <;> simp [isEnded]

theorem isEnded_eq_false (hs : Text.Only isInner s) : isEnded s = false := by
  unfold isEnded
  split
  · next c hlast =>
    have hc := hs c (List.mem_of_getLast? hlast)
    simpa [isInner] using hc
  · rfl

end Lines

/-! ### Headers -/

namespace Patch

/-- Characters that can go on behind a number. -/
def isNumeric (c : Char) : Bool :=
  c.isDigit || c == ','

variable {t u : Text}

theorem only_isDigit_ofNat (n : Nat) : Text.Only Char.isDigit (Text.ofNat n) :=
  fun _ hc => Nat.isDigit_of_mem_toDigits (by omega) (by omega) hc

theorem number?_append (n : Nat) (hu : Text.Stops Char.isDigit u) :
    number? (Text.ofNat n ++ u) = some (n, u) := by
  have hdigits := only_isDigit_ofNat n
  have hne : Text.ofNat n ≠ [] := Nat.toDigits_ne_nil
  have hvalue : Nat.ofDigitChars 10 (Text.ofNat n) 0 = n :=
    Nat.ofDigitChars_toDigits (by omega) (by omega)
  rw [number?, Text.takeWhile_run_append hdigits hu, Text.dropWhile_run_append hdigits hu]
  simp [hne, hvalue]

theorem range?_append (start stop : Nat) (hu : Text.Stops isNumeric u) :
    range? (Diff.Hunk.range start stop ++ u) = some (⟨start, stop - start⟩, u) := by
  have hdigit : Text.Stops Char.isDigit u := hu.mono fun c hc => by simp [isNumeric, hc]
  have hcomma (t : Text) : Text.Stops Char.isDigit (',' :: t) := Text.stops_cons.2 (by decide)
  unfold Diff.Hunk.range
  split
  · next hnone =>
    have hzero : number? ('0' :: u) = some (0, u) := number?_append 0 hdigit
    rw [hnone]
    simp [range?, number?_append, hcomma, hzero]
  · next hone =>
    rw [hone, range?, number?_append _ hdigit]
    cases u with
    | nil => rfl
    | cons c u =>
      have hc : c ≠ ',' := by
        rintro rfl
        simp [isNumeric] at hu
      simp [hc]
  · next n hnone hone =>
    have hn : stop - start ≠ 0 := hnone
    simp [range?, number?_append, hcomma, hdigit, hn]

theorem header?_header (first last : Region) :
    header? (Diff.Hunk.header first last) =
      some (⟨first.oldStart, last.oldStop - first.oldStart⟩,
        ⟨first.newStart, last.newStop - first.newStart⟩) := by
  have hline : Diff.Hunk.header first last = "@@ -".toList ++
      (Diff.Hunk.range first.oldStart last.oldStop ++ (" +".toList ++
        (Diff.Hunk.range first.newStart last.newStop ++ " @@\n".toList))) := by
    unfold Diff.Hunk.header
    rw [List.append_assoc, List.append_assoc, List.append_assoc]
  have hold := Text.behind?_eq_some_iff.2 hline
  have hnew : Text.behind? " +".toList (" +".toList ++
      (Diff.Hunk.range first.newStart last.newStop ++ " @@\n".toList)) =
        some (Diff.Hunk.range first.newStart last.newStop ++ " @@\n".toList) :=
    Text.behind?_eq_some_iff.2 rfl
  have hstop : Text.Stops isNumeric " @@\n".toList := by simp [isNumeric]
  have hstop' (t : Text) : Text.Stops isNumeric (" +".toList ++ t) := by simp [isNumeric]
  rw [header?, Option.bind_eq_bind, Option.bind_eq_some_iff]
  refine ⟨_, hold, ?_⟩
  refine Option.bind_eq_some_iff.2 ⟨_, range?_append _ _ (hstop' _), ?_⟩
  refine Option.bind_eq_some_iff.2 ⟨_, hnew, ?_⟩
  exact Option.bind_eq_some_iff.2 ⟨_, range?_append _ _ hstop, if_pos rfl⟩

theorem only_isInner_ofNat (n : Nat) : Text.Only isInner (Text.ofNat n) := by
  refine (only_isDigit_ofNat n).mono fun c hc => ?_
  have hfeed : c ≠ '\n' := by
    rintro rfl
    simp at hc
  have hreturn : c ≠ '\r' := by
    rintro rfl
    simp at hc
  simp [isInner, hfeed, hreturn]

theorem only_isInner_range (start stop : Nat) : Text.Only isInner (Diff.Hunk.range start stop) := by
  unfold Diff.Hunk.range
  split
  · simp [only_isInner_ofNat, isInner]
  · simp [only_isInner_ofNat]
  · simp [only_isInner_ofNat, isInner]

theorem exists_header_eq (first last : Region) : ∃ t, Diff.Hunk.header first last = '@' :: t :=
  ⟨_, rfl⟩

/-- A header is a line. -/
theorem lines_header_append (first last : Region) (hu : Text.Stops (· == '\n') u) :
    lines (Diff.Hunk.header first last ++ u) = Diff.Hunk.header first last :: lines u := by
  have hline : Diff.Hunk.header first last =
      "@@ -".toList ++ Diff.Hunk.range first.oldStart last.oldStop ++ " +".toList ++
        Diff.Hunk.range first.newStart last.newStop ++ " @@".toList ++ "\n".toList := by
    have hend : " @@\n".toList = " @@".toList ++ "\n".toList := by decide +kernel
    unfold Diff.Hunk.header
    rw [hend]
    exact (List.append_assoc _ _ _).symm
  rw [hline]
  refine lines_append ?_ (.inl rfl) hu
  simp [only_isInner_range, isInner]

/-! ### Lines with marks -/

/-- The line as it is marked. -/
def Entry.marked (e : Entry) : Text :=
  e.1.mark :: e.2

theorem isLine_marked {e : Entry} (h : IsLine e.2) : IsLine e.marked := by
  refine h.cons ?_
  cases e.1 <;> rfl

/-- Characters that no line of a patch begins with, except for a note. -/
def isMisplaced (c : Char) : Bool :=
  c == '\n' || c == '\\'

theorem stops_marked (e : Entry) (t : Text) : Text.Stops isMisplaced (e.marked ++ t) := by
  obtain ⟨action, text⟩ := e
  cases action <;> simp [Entry.marked, Action.mark, isMisplaced]

theorem note_not_mem (hu : Text.Stops isMisplaced u) : note ∉ (lines u).head? := by
  intro hmem
  have hnote : ∃ t, u = '\\' :: t := by
    cases hlines : lines u with
    | nil => simp [hlines] at hmem
    | cons line rest =>
      obtain rfl : line = note := by simpa [hlines] using hmem
      rw [← flatten_lines u, hlines]
      exact ⟨_, rfl⟩
  obtain ⟨t, rfl⟩ := hnote
  simp [isMisplaced] at hu

theorem withoutNotes_cons {line : Text} {rest : List Text} (h : note ∉ rest.head?) :
    withoutNotes (line :: rest) = line :: withoutNotes rest := by
  cases rest with
  | nil => rfl
  | cons next rest =>
    have hne : next ≠ note := by simpa [eq_comm] using h
    rw [withoutNotes, if_neg hne]

theorem feed_append_note : "\n\\ No newline at end of file\n".toList = "\n".toList ++ note := by
  decide +kernel

theorem note_eq : note = '\\' :: (" No newline at end of file".toList ++ "\n".toList) := by
  decide +kernel

theorem lines_note_append (hu : Text.Stops (· == '\n') u) : lines (note ++ u) = note :: lines u := by
  have hwords : " No newline at end of file".toList.all isInner = true := by decide +kernel
  have hinner : Text.Only isInner ('\\' :: " No newline at end of file".toList) :=
    Text.only_cons.2 ⟨rfl, List.all_eq_true.1 hwords⟩
  rw [note_eq]
  exact lines_append hinner (.inl rfl) hu

/-- A written line is read as the line, also when it has no end. -/
theorem withoutNotes_lines_written {line : Text} (hline : IsLine line)
    (hu : Text.Stops isMisplaced u) :
    withoutNotes (lines (Diff.Hunk.writtenLine line ++ u)) = line :: withoutNotes (lines u) := by
  have hfeed : Text.Stops (· == '\n') u := hu.mono fun c hc => by simp [isMisplaced, hc]
  obtain ⟨s, e, rfl, hs, rfl | he⟩ := hline
  · have hwritten : Diff.Hunk.writtenLine (s ++ []) ++ u = s ++ "\n".toList ++ (note ++ u) := by
      rw [Diff.Hunk.writtenLine, List.append_nil, isEnded_eq_false hs, if_neg (by simp),
        feed_append_note, List.append_assoc, List.append_assoc, List.append_assoc]
    have hnote : Text.Stops (· == '\n') (note ++ u) := by
      rw [note_eq]
      exact Text.stops_cons.2 rfl
    rw [hwritten, lines_append hs (.inl rfl) hnote, lines_note_append hfeed, withoutNotes,
      if_pos rfl, List.append_nil]
    simp
  · rw [Diff.Hunk.writtenLine, if_pos (isEnded_append he), lines_append hs he hfeed,
      withoutNotes_cons (note_not_mem hu)]

theorem stops_written (e : Entry) (t : Text) :
    Text.Stops isMisplaced (Diff.Hunk.writtenLine e.marked ++ t) := by
  unfold Diff.Hunk.writtenLine
  split
  · exact stops_marked e t
  · rw [List.append_assoc]
    exact stops_marked e _

/-- Written lines are read as the lines they show. -/
theorem withoutNotes_lines_entries {entries : List Entry} (hlines : ∀ e ∈ entries, IsLine e.2)
    (hu : Text.Stops isMisplaced u) :
    withoutNotes (lines ((entries.map Entry.marked).flatMap Diff.Hunk.writtenLine ++ u)) =
        entries.map Entry.marked ++ withoutNotes (lines u) ∧
      Text.Stops isMisplaced ((entries.map Entry.marked).flatMap Diff.Hunk.writtenLine ++ u) := by
  induction entries with
  | nil => exact ⟨rfl, hu⟩
  | cons e entries ih =>
    obtain ⟨hfirst, hrest⟩ := List.forall_mem_cons.1 hlines
    obtain ⟨hread, hstops⟩ := ih hrest
    rw [List.map_cons, List.flatMap_cons, List.append_assoc]
    refine ⟨?_, stops_written e _⟩
    rw [withoutNotes_lines_written (isLine_marked hfirst) hstops, hread, List.cons_append]

theorem group?_marked_append (entries : List Entry) {rest : List Text} {open' : List Entry}
    {hunks : List Hunk} (h : group? rest = some (open', hunks)) :
    group? (entries.map Entry.marked ++ rest) = some (entries ++ open', hunks) := by
  induction entries with
  | nil => exact h
  | cons e entries ih =>
    rw [List.map_cons, List.cons_append, Entry.marked, group?, ih]
    simp

theorem group?_header {first last : Region} {rest : List Text} {entries : List Entry}
    {hunks : List Hunk} (h : group? rest = some (entries, hunks)) :
    group? (Diff.Hunk.header first last :: rest) =
      some ([], ⟨⟨first.oldStart, last.oldStop - first.oldStart⟩,
        ⟨first.newStart, last.newStop - first.newStart⟩, entries⟩ :: hunks) := by
  obtain ⟨t, ht⟩ := exists_header_eq first last
  have hheader := header?_header first last
  rw [ht] at hheader ⊢
  rw [group?, h]
  simp [Action.ofMark?, hheader]

end Patch

/-! ### Hunks -/

/-- Lines of a block and what happens to them. -/
def Block.entries (v : Versions) (b : Block) : List Patch.Entry :=
  if b.isKept then
    (Hunk.oldLines v b.region).map (Action.keep, ·)
  else
    (Hunk.oldLines v b.region).map (Action.delete, ·) ++
      (Hunk.newLines v b.region).map (Action.insert, ·)

/-- The hunk that a text shows.  It shows none that has no lines. -/
def Hunk.shown? (v : Versions) : Hunk → Option Patch.Hunk
  | [] => none
  | first :: rest =>
      let last := (first :: rest).getLast (List.cons_ne_nil first rest)
      let entries := (first :: rest).flatMap (Block.entries v)
      if entries = [] then none
      else some ⟨⟨first.region.oldStart, last.region.oldStop - first.region.oldStart⟩,
        ⟨first.region.newStart, last.region.newStop - first.region.newStart⟩, entries⟩

section Hunks

variable {v : Versions}

theorem Block.map_marked_entries (v : Versions) (b : Block) :
    (b.entries v).map Patch.Entry.marked = Hunk.blockLines v b := by
  unfold entries Hunk.blockLines
  split
  · simp [Function.comp_def, Patch.Entry.marked, Action.mark]
  · simp [Function.comp_def, Patch.Entry.marked, Action.mark]

theorem Block.map_marked_flatMap_entries (v : Versions) (blocks : List Block) :
    (blocks.flatMap (Block.entries v)).map Patch.Entry.marked =
      blocks.flatMap (Hunk.blockLines v) := by
  rw [List.map_flatMap]
  simp only [map_marked_entries]

theorem Block.isLine_entries (hold : ∀ line ∈ v.old.toList, IsLine line)
    (hnew : ∀ line ∈ v.new.toList, IsLine line) (b : Block) : ∀ e ∈ b.entries v, IsLine e.2 := by
  have holdLines : ∀ line ∈ Hunk.oldLines v b.region, IsLine line := by
    intro line hline
    rw [Hunk.oldLines, Array.toList_extract] at hline
    exact hold line (List.mem_of_mem_drop (List.mem_of_mem_take hline))
  have hnewLines : ∀ line ∈ Hunk.newLines v b.region, IsLine line := by
    intro line hline
    rw [Hunk.newLines, Array.toList_extract] at hline
    exact hnew line (List.mem_of_mem_drop (List.mem_of_mem_take hline))
  intro e he
  unfold entries at he
  split at he
  · obtain ⟨line, hline, rfl⟩ := List.mem_map.1 he
    exact holdLines line hline
  · rcases List.mem_append.1 he with he | he
    · obtain ⟨line, hline, rfl⟩ := List.mem_map.1 he
      exact holdLines line hline
    · obtain ⟨line, hline, rfl⟩ := List.mem_map.1 he
      exact hnewLines line hline

theorem Hunk.text_cons (v : Versions) (first : Block) (rest : List Block) :
    Hunk.text v (first :: rest) =
      if (first :: rest).flatMap (Block.entries v) = [] then []
      else Hunk.header first.region ((first :: rest).getLast (List.cons_ne_nil first rest)).region ++
        (((first :: rest).flatMap (Block.entries v)).map Patch.Entry.marked).flatMap
          Hunk.writtenLine := by
  have hiff : (first :: rest).flatMap (Hunk.blockLines v) = [] ↔
      (first :: rest).flatMap (Block.entries v) = [] := by
    rw [← Block.map_marked_flatMap_entries, List.map_eq_nil_iff]
  simp only [← hiff, Block.map_marked_flatMap_entries]
  unfold Hunk.text
  cases (first :: rest).flatMap (Hunk.blockLines v) with
  | nil => rfl
  | cons line written => rfl

/-- In front of hunks that are read, the text of one more is read as this hunk. -/
theorem Hunk.group?_text_append (hold : ∀ line ∈ v.old.toList, IsLine line)
    (hnew : ∀ line ∈ v.new.toList, IsLine line) (hunk : Hunk) {u : Text}
    {hunks : List Patch.Hunk} (hu : Text.Stops Patch.isMisplaced u)
    (hread : Patch.group? (Patch.withoutNotes (lines u)) = some ([], hunks)) :
    Patch.group? (Patch.withoutNotes (lines (Hunk.text v hunk ++ u))) =
        some ([], (Hunk.shown? v hunk).toList ++ hunks) ∧
      Text.Stops Patch.isMisplaced (Hunk.text v hunk ++ u) := by
  cases hunk with
  | nil => exact ⟨hread, hu⟩
  | cons first rest =>
    rw [Hunk.text_cons, Hunk.shown?]
    split
    · exact ⟨hread, hu⟩
    · have hlines : ∀ e ∈ (first :: rest).flatMap (Block.entries v), IsLine e.2 := by
        intro e he
        obtain ⟨b, -, hmem⟩ := List.mem_flatMap.1 he
        exact Block.isLine_entries hold hnew b e hmem
      obtain ⟨hentries, hstops⟩ := Patch.withoutNotes_lines_entries hlines hu
      have hgroup := Patch.group?_marked_append ((first :: rest).flatMap (Block.entries v)) hread
      rw [← hentries, List.append_nil] at hgroup
      have hfeed : Text.Stops (· == '\n') ((((first :: rest).flatMap (Block.entries v)).map
          Patch.Entry.marked).flatMap Hunk.writtenLine ++ u) :=
        hstops.mono fun c hc => by simp [Patch.isMisplaced, hc]
      rw [List.append_assoc, Patch.lines_header_append _ _ hfeed,
        Patch.withoutNotes_cons (Patch.note_not_mem hstops), Patch.group?_header hgroup]
      refine ⟨rfl, ?_⟩
      obtain ⟨t, ht⟩ := Patch.exists_header_eq first.region
        ((first :: rest).getLast (List.cons_ne_nil first rest)).region
      rw [ht]
      simp [Patch.isMisplaced]

/-- The hunks are read back from their text. -/
theorem Hunk.read?_flatMap_text (hold : ∀ line ∈ v.old.toList, IsLine line)
    (hnew : ∀ line ∈ v.new.toList, IsLine line) (hunks : List Hunk) :
    Patch.read? (hunks.flatMap (Hunk.text v)) = some (hunks.filterMap (Hunk.shown? v)) := by
  have hall : Patch.group? (Patch.withoutNotes (lines (hunks.flatMap (Hunk.text v)))) =
        some ([], hunks.filterMap (Hunk.shown? v)) ∧
      Text.Stops Patch.isMisplaced (hunks.flatMap (Hunk.text v)) := by
    induction hunks with
    | nil => exact ⟨rfl, Text.stops_nil⟩
    | cons hunk hunks ih =>
      obtain ⟨hread, hstops⟩ := ih
      rw [List.flatMap_cons]
      obtain ⟨hread', hstops'⟩ := Hunk.group?_text_append hold hnew hunk hstops hread
      refine ⟨?_, hstops'⟩
      rw [hread', List.filterMap_cons]
      cases Hunk.shown? v hunk with
      | none => rfl
      | some shown => rfl
  rw [Patch.read?, hall.1]
  rfl

end Hunks

end Diff
end BackingField
