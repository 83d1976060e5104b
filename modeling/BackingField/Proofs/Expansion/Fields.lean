import BackingField.Proofs.Expansion.Bare

/-!
# When two properties share a backing field

Each expanded occurrence declares one field.  Its name has lost the case of the first letter of the
property and nothing else, so two properties share a field exactly if their names are alike but for
that (`Declaration.fieldName_eq_iff`).  In lower case `U+0130` is two characters, so it also meets the
letter I with a combining dot.  The fields of a text are pairwise distinct exactly if no two of its
properties have names that are alike (`nodup_fieldNames_iff`).  It is not enough that the names are
distinct (`exists_shared_fieldName`).
-/

namespace BackingField

open Text

/-! ### The lower-case form of a character -/

namespace Text

variable {c c' : Char} {s s' : Text}

theorem lower_eq_singleton (h : c ≠ '\u0130') : lower c = [Char.ofNat (lowerPoint c.toNat)] :=
  if_neg h

theorem lower_dotted : lower '\u0130' = ['i', '\u0307'] :=
  rfl

theorem lower_ne_nil (c : Char) : lower c ≠ [] := by
  unfold lower
  split
  · simp
  · simp

/-- Of all runs only the first one goes to the letter i. -/
theorem caseRuns_above_i :
    (caseRuns.all fun run => run = ⟨0x41, 0x5A, 1, 0x61⟩ || 'i'.toNat < run.target) = true := by
  decide +kernel

theorem lowerPoint_eq_i {n : Nat} (h : lowerPoint n = 'i'.toNat) :
    n = 'I'.toNat ∨ n = 'i'.toNat := by
  unfold lowerPoint at h
  split at h
  · next run hrun =>
    have hcovers := List.find?_some hrun
    have habove := List.all_eq_true.1 caseRuns_above_i run (List.mem_of_find?_eq_some hrun)
    simp only [CaseRun.covers, Bool.and_eq_true, decide_eq_true_eq] at hcovers
    simp only [Bool.or_eq_true, decide_eq_true_eq] at habove
    rcases habove with rfl | habove
    · have hfirst : 0x41 ≤ n := hcovers.1.1
      change 0x61 + (n - 0x41) = 0x69 at h
      change n = 0x49 ∨ n = 0x69
      omega
    · omega
  · exact .inr h

theorem eq_toNat_of_ofNat_eq {n : Nat} (h : Char.ofNat n = c) (hc : c ≠ Char.ofNat 0) :
    n = c.toNat := by
  by_cases hvalid : n.isValidChar
  · rw [Char.ofNat, dif_pos hvalid] at h
    rw [← h]
    rfl
  · rw [Char.ofNat, dif_neg hvalid] at h
    exact absurd h.symm hc

theorem lower_eq_i_iff : lower c = ['i'] ↔ c = 'I' ∨ c = 'i' := by
  constructor
  · intro h
    have hne : c ≠ '\u0130' := by
      rintro rfl
      simp [lower] at h
    rw [lower_eq_singleton hne] at h
    have hpoint := eq_toNat_of_ofNat_eq (List.cons.inj h).1 (by decide)
    rcases lowerPoint_eq_i hpoint with hc | hc
    · exact .inl (Char.toNat_inj.1 hc)
    · exact .inr (Char.toNat_inj.1 hc)
  · rintro (rfl | rfl)
    · decide
    · decide

/-- Behind the two characters of `U+0130` in lower case the same follows as behind one i and a
combining dot. -/
theorem lower_dotted_append_eq_iff (hc : c ≠ '\u0130') :
    lower '\u0130' ++ s = lower c ++ s' ↔ (c = 'I' ∨ c = 'i') ∧ s' = '\u0307' :: s := by
  rw [← lower_eq_i_iff, lower_dotted, lower_eq_singleton hc]
  simp [eq_comm]

end Text

/-! ### Names of fields -/

namespace Declaration

/-- Names that are the same but for the case of their first letter.  The dot of `U+0130` may stand
behind the letter as a combining mark. -/
inductive Alike : Text → Text → Prop
  | empty : Alike [] []
  | letter {c c' : Char} (hlower : lower c = lower c') (name : Text) :
      Alike (c :: name) (c' :: name)
  | dotted {c : Char} (hletter : c = 'I' ∨ c = 'i') (name : Text) :
      Alike ('\u0130' :: name) (c :: '\u0307' :: name)
  | dotted' {c : Char} (hletter : c = 'I' ∨ c = 'i') (name : Text) :
      Alike (c :: '\u0307' :: name) ('\u0130' :: name)

variable {name name' : Text}

theorem fieldName_eq_of_alike (h : Alike name name') : fieldName name = fieldName name' := by
  cases h with
  | empty => rfl
  | letter hlower name => simp [fieldName, hlower]
  | dotted hletter name => simp [fieldName, lower_dotted, lower_eq_i_iff.2 hletter]
  | dotted' hletter name => simp [fieldName, lower_dotted, lower_eq_i_iff.2 hletter]

/-- Properties share a field exactly if their names are alike. -/
theorem fieldName_eq_iff : fieldName name = fieldName name' ↔ Alike name name' := by
  refine ⟨fun h => ?_, fieldName_eq_of_alike⟩
  cases name with
  | nil =>
    cases name' with
    | nil => exact .empty
    | cons c' name' => simp [fieldName, lower_ne_nil] at h
  | cons c name =>
    cases name' with
    | nil => simp [fieldName, lower_ne_nil] at h
    | cons c' name' =>
      have hlower : lower c ++ name = lower c' ++ name' := by simpa [fieldName] using h
      by_cases hc : c = '\u0130'
      · by_cases hc' : c' = '\u0130'
        · subst hc hc'
          rw [List.append_cancel_left hlower]
          exact .letter rfl name'
        · subst hc
          obtain ⟨hletter, rfl⟩ := (lower_dotted_append_eq_iff hc').1 hlower
          exact .dotted hletter name
      · by_cases hc' : c' = '\u0130'
        · subst hc'
          obtain ⟨hletter, rfl⟩ := (lower_dotted_append_eq_iff hc).1 hlower.symm
          exact .dotted' hletter name'
        · rw [lower_eq_singleton hc, lower_eq_singleton hc'] at hlower
          obtain ⟨hfirst, rfl⟩ := List.cons.inj hlower
          refine .letter ?_ name
          rw [lower_eq_singleton hc, lower_eq_singleton hc', hfirst]

/-- The declaration of the field of a property. -/
def fieldDeclaration (d : Declaration) : Text :=
  "private ".toList ++ d.type ++ " ".toList ++ fieldName d.name ++ ";".toList

theorem exists_expanded_eq_fieldDeclaration (d : Declaration) (ending : LineEnding) :
    ∃ property, d.expanded ending =
      d.indent ++ d.fieldDeclaration ++ ending.text ++ property := by
  unfold expanded fieldDeclaration
  simp only [List.append_assoc]
  exact ⟨_, rfl⟩

end Declaration

/-! ### The fields of a text -/

/-- Every occurrence is expanded to the declaration of a field and the property that uses it, and
nothing else is put into a text.  These fields have pairwise distinct names exactly if no two of the
properties have names that are the same but for the case of their first letter. -/
theorem nodup_fieldNames_iff (source : Text) :
    ∃ (first : Text) (gaps : List Text) (expanded : Text),
      gaps.length = (Occurrence.find source).length ∧
      expand source = .ok ⟨expanded, (Occurrence.find source).length⟩ ∧
      source = withGaps first ((Occurrence.find source).map Occurrence.text) gaps ∧
      expanded = withGaps first ((Occurrence.find source).map Occurrence.expanded) gaps ∧
      (∀ o ∈ Occurrence.find source, ∃ property, o.expanded = o.declaration.indent ++
        o.declaration.fieldDeclaration ++ o.lineEnding.text ++ property) ∧
      (((Occurrence.find source).map fun o => Declaration.fieldName o.declaration.name).Nodup ↔
        (Occurrence.find source).Pairwise fun o p =>
          ¬ Declaration.Alike o.declaration.name p.declaration.name) := by
  obtain ⟨first, gaps, hlength, hgaps⟩ := Splice.exists_gaps source 0 (Occurrence.find source)
  have hpieces (new : Occurrence → Text) : Splice.onePass source 0
      ((Occurrence.find source).map fun o => ⟨o.start, o.stop, new o⟩) =
        withGaps first ((Occurrence.find source).map new) gaps := by
    rw [hgaps new, withGaps, List.zipWith_map_left]
  refine ⟨first, gaps, _, hlength, expand_eq_onePass source, ?_, hpieces Occurrence.expanded,
    fun o _ => o.declaration.exists_expanded_eq_fieldDeclaration o.lineEnding, ?_⟩
  · rw [← hpieces Occurrence.text, onePass_text]
  · simp only [← Declaration.fieldName_eq_iff]
    exact List.pairwise_map

/-- Two properties with distinct names, and one field for both. -/
theorem exists_shared_fieldName :
    let block := "\n\x7b\nget;\nset => Set(ref field, value);\n\x7d\n"
    let expandedBlock := "\n\x7b\nget => _count;\nset => Set(ref _count, value);\n\x7d\n"
    let source := ("public int Count" ++ block ++ "public int count" ++ block).toList
    ((Occurrence.find source).map fun o => o.declaration.name) =
        ["Count".toList, "count".toList] ∧
      ((Occurrence.find source).map fun o => o.declaration.name).Nodup ∧
      ¬ ((Occurrence.find source).map fun o =>
        Declaration.fieldName o.declaration.name).Nodup ∧
      (expand source).toOption = some ⟨("private int _count;\npublic int Count" ++ expandedBlock ++
        "private int _count;\npublic int count" ++ expandedBlock).toList, 2⟩ := by
  decide +kernel

end BackingField
