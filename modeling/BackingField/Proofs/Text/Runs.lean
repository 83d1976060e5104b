import BackingField.Text.Word

/-!
# Runs of characters

A run is a text of which all characters belong to one class.  In front of a text that does not begin
with a character of the class, a run is exactly what `takeWhile` takes and `dropWhile` drops, so a
reader that takes as much as it can finds the run again.
-/

namespace BackingField
namespace Text

/-- All characters of the text belong to the class. -/
def Only (p : Char → Bool) (t : Text) : Prop :=
  ∀ c ∈ t, p c = true

/-- The text does not begin with a character of the class. -/
def Stops (p : Char → Bool) (t : Text) : Prop :=
  ∀ c ∈ t.head?, p c = false

/-- A run of word characters, at least one. -/
def IsIdentifier (t : Text) : Prop :=
  t ≠ [] ∧ Only isWord t

/-- A run of blanks, at least one. -/
def IsGap (t : Text) : Prop :=
  t ≠ [] ∧ Only isBlank t

section Runs

variable {p q : Char → Bool} {run s t : Text} {c : Char}

@[simp] theorem only_nil : Only p [] := by
  simp [Only]

@[simp] theorem only_cons : Only p (c :: t) ↔ p c = true ∧ Only p t := by
  simp [Only]

@[simp] theorem only_append : Only p (s ++ t) ↔ Only p s ∧ Only p t :=
  List.forall_mem_append

/-- A run has no character from outside of its class. -/
theorem Only.not_mem (h : Only p t) (hc : p c = false) : c ∉ t := by
  intro hmem
  have hclass := h c hmem
  rw [hc] at hclass
  contradiction

theorem Only.mono (h : Only p t) (hpq : ∀ c, p c = true → q c = true) : Only q t :=
  fun c hc => hpq c (h c hc)

@[simp] theorem stops_nil : Stops p [] := by
  simp [Stops]

@[simp] theorem stops_cons : Stops p (c :: t) ↔ p c = false := by
  simp [Stops]

/-- What stops a class stops every part of it. -/
theorem Stops.mono (h : Stops q t) (hpq : ∀ c, p c = true → q c = true) : Stops p t := by
  intro c hc
  cases hp : p c with
  | false => rfl
  | true =>
    have hq : q c = false := h c hc
    rw [hpq c hp] at hq
    contradiction

/-- Only the first of two texts decides where a run stops, unless it is empty. -/
theorem stops_append (hs : s ≠ []) : Stops p (s ++ t) ↔ Stops p s := by
  cases s with
  | nil => exact absurd rfl hs
  | cons c s => simp

theorem takeWhile_eq_nil_of_stops (ht : Stops p t) : t.takeWhile p = [] := by
  cases t with
  | nil => rfl
  | cons c t => rw [List.takeWhile_cons_of_neg (by simpa using ht)]

theorem dropWhile_eq_self_of_stops (ht : Stops p t) : t.dropWhile p = t := by
  cases t with
  | nil => rfl
  | cons c t => rw [List.dropWhile_cons_of_neg (by simpa using ht)]

/-- What is taken in front of a text that stops the class is the whole run. -/
theorem takeWhile_run_append (hrun : Only p run) (ht : Stops p t) :
    (run ++ t).takeWhile p = run := by
  rw [List.takeWhile_append_of_pos hrun, takeWhile_eq_nil_of_stops ht, List.append_nil]

/-- What is dropped in front of a text that stops the class is the whole run. -/
theorem dropWhile_run_append (hrun : Only p run) (ht : Stops p t) :
    (run ++ t).dropWhile p = t := by
  rw [List.dropWhile_append_of_pos hrun, dropWhile_eq_self_of_stops ht]

theorem only_takeWhile (p : Char → Bool) (t : Text) : Only p (t.takeWhile p) := by
  intro c hc
  exact List.all_eq_true.1 List.all_takeWhile c hc

theorem stops_dropWhile (p : Char → Bool) (t : Text) : Stops p (t.dropWhile p) := by
  intro c hc
  have hfirst := List.head?_dropWhile_not p t
  rw [Option.mem_def.1 hc] at hfirst
  exact hfirst

/-- A run stops every class that has no character in common with its own. -/
theorem Only.stops (hne : s ≠ []) (hs : Only p s) (hpq : ∀ c, p c = true → q c = false) :
    Stops q (s ++ t) := by
  rw [stops_append hne]
  intro c hc
  exact hpq c (hs c (List.mem_of_mem_head? hc))

/-- Blanks stop a run of word characters. -/
theorem IsGap.stops_isWord (hs : IsGap s) : Stops isWord (s ++ t) :=
  hs.2.stops hs.1 fun _ => isWord_eq_false_of_isBlank

theorem isGap_space : IsGap " ".toList :=
  ⟨by simp, by simp; decide⟩

/-- A run of blanks, a line feed and indentation are blank as a whole. -/
theorem isGap_newLine (hs : Only isBlank s) (ht : Only isIndent t) :
    IsGap (s ++ ("\n".toList ++ t)) := by
  refine ⟨by simp, only_append.2 ⟨hs, only_append.2 ⟨by simp; decide, ?_⟩⟩⟩
  exact ht.mono fun _ => isBlank_of_isIndent

theorem stops_isWord_append (hs : Only isBlank s) (ht : Stops isWord t) : Stops isWord (s ++ t) := by
  cases s with
  | nil => exact ht
  | cons c s => simp [isWord_eq_false_of_isBlank (only_cons.1 hs).1]

theorem isBlank_eq_false_of_isWord (h : isWord c = true) : isBlank c = false := by
  cases hblank : isBlank c with
  | false => rfl
  | true =>
    rw [isWord_eq_false_of_isBlank hblank] at h
    contradiction

/-- Word characters stop a run of blanks. -/
theorem IsIdentifier.stops_isBlank (hs : IsIdentifier s) : Stops isBlank (s ++ t) :=
  hs.2.stops hs.1 fun _ => isBlank_eq_false_of_isWord

/-- A character outside of a class is none of its characters. -/
theorem beq_eq_false_of_class {d : Char} (hd : p d = false) (hc : p c = true) : (c == d) = false := by
  cases heq : c == d with
  | false => rfl
  | true =>
    rw [beq_iff_eq.1 heq, hd] at hc
    contradiction

/-- An identifier does not begin with a character of no word. -/
theorem IsIdentifier.stops_beq {d : Char} (hs : IsIdentifier s) (hd : isWord d = false) :
    Stops (· == d) (s ++ t) :=
  hs.2.stops hs.1 fun _ => beq_eq_false_of_class hd

theorem only_ne_of_not_mem (h : c ∉ t) : Only (· ≠ c) t := by
  intro d hd
  have hne : d ≠ c := fun heq => h (heq ▸ hd)
  simpa using hne

/-- There is one way to divide a text at the end of a run. -/
theorem run_append_inj {run' t' : Text} (hrun : Only p run) (hrun' : Only p run') (ht : Stops p t)
    (ht' : Stops p t') (h : run ++ t = run' ++ t') : run = run' ∧ t = t' := by
  have hfront : run = run' := by
    rw [← takeWhile_run_append hrun ht, h, takeWhile_run_append hrun' ht']
  rw [hfront] at h
  exact ⟨hfront, List.append_cancel_left h⟩

/-- There is one way to divide a text at the first place of a character. -/
theorem append_cons_inj {s' t' : Text} (hs : c ∉ s) (hs' : c ∉ s')
    (h : s ++ c :: t = s' ++ c :: t') : s = s' ∧ t = t' := by
  have hstop (r : Text) : Stops (· ≠ c) (c :: r) := stops_cons.2 (by simp)
  obtain ⟨hfront, hrest⟩ :=
    run_append_inj (only_ne_of_not_mem hs) (only_ne_of_not_mem hs') (hstop t) (hstop t') h
  exact ⟨hfront, by simpa using hrest⟩

end Runs
end Text
end BackingField
