import BackingField.Proofs.Declaration.Unambiguity
import BackingField.Proofs.Occurrence.Scan

/-!
# No choice in the search

At a line start of a text there is at most one way to divide what follows, and where an occurrence
was found it is the one that gives the occurrence.  A search may therefore try the divisions of a
text in any order, long runs first or short ones, and stop at the first that fits.  Such an order is
a `Division.Strategy`, and with every strategy the leftmost scan is the one of `Occurrence.find`
(`find_unambiguous`).
-/

namespace BackingField

namespace Division

open Occurrence (LineStart)

variable {p : Division} {t : Text} {o : Occurrence}

/-- The division is one of what follows a line start, which has the given offset. -/
def DividesFrom (p : Division) (t : Text) (start : Nat) : Prop :=
  ∃ before after, t = before ++ after ∧ start = Text.size before ∧ LineStart before ∧ p.Divides after

/-- What a division at the given offset shows of a text. -/
def occurrence (p : Division) (start : Nat) : Occurrence :=
  ⟨start, start + Text.size p.text, p.text, p.declaration⟩

theorem dividesFrom_subsingleton (t : Text) (start : Nat) :
    {p : Division | p.DividesFrom t start}.Subsingleton := by
  rintro p ⟨before, after, ht, hstart, -, hp⟩ q ⟨before', after', ht', hstart', -, hq⟩
  obtain ⟨-, rfl⟩ := Text.append_inj_of_size_eq (ht ▸ ht') (hstart ▸ hstart')
  exact divides_subsingleton after hp hq

/-- The occurrences of a text are the ones that its divisions give. -/
theorem standsIn_iff_exists_dividesFrom :
    o.StandsIn t ↔ ∃ p : Division, p.DividesFrom t o.start ∧ p.occurrence o.start = o := by
  constructor
  · rintro ⟨before, after, ht, hstart, hstop, hline, hspelled⟩
    obtain ⟨p, hp, hdeclaration, htext, -⟩ := exists_divides_of_isSpelledBy hspelled after
    refine ⟨p, ⟨before, o.text ++ after, ht, hstart, hline, hp⟩, ?_⟩
    have hsize : o.start + Text.size o.text = o.stop := by
      rw [hstop, Text.size_append, hstart]
    unfold occurrence
    rw [hdeclaration, htext, hsize]
  · rintro ⟨p, ⟨before, after, ht, hstart, hline, hp⟩, heq⟩
    rw [← heq]
    refine ⟨before, p.rest, ?_, hstart, ?_, hline, hp.isSpelledBy⟩
    · rw [ht, hp.text_eq]
      rfl
    · show o.start + Text.size p.text = Text.size (before ++ p.text)
      rw [Text.size_append, hstart]

/-- A way to choose one of the divisions of a text, whenever there are any. -/
structure Strategy where
  choose : Text → Option Division
  divides_of_choose : ∀ {t : Text} {p : Division}, choose t = some p → p.Divides t
  isSome_choose : ∀ {t : Text} {p : Division}, p.Divides t → (choose t).isSome = true

/-- Some choice can always be made. -/
instance : Nonempty Strategy := by
  classical
  let choose (t : Text) : Option Division :=
    if h : ∃ p : Division, p.Divides t then some h.choose else none
  refine ⟨⟨choose, ?_, ?_⟩⟩
  · intro t p hp
    by_cases h : ∃ p : Division, p.Divides t
    · obtain rfl : h.choose = p := by simpa [choose, h] using hp
      exact h.choose_spec
    · simp [choose, h] at hp
  · intro t p hp
    have h : ∃ p : Division, p.Divides t := ⟨p, hp⟩
    simp [choose, h]

namespace Strategy

variable {strategy : Strategy}

/-- There is nothing to choose from. -/
theorem choose_eq_some_iff : strategy.choose t = some p ↔ p.Divides t := by
  constructor
  · exact strategy.divides_of_choose
  · intro hp
    obtain ⟨q, hq⟩ := Option.isSome_iff_exists.1 (strategy.isSome_choose hp)
    rw [hq, divides_subsingleton t (strategy.divides_of_choose hq) hp]

/-- The occurrence is what the strategy chooses at a line start. -/
def Occurs (strategy : Strategy) (t : Text) (o : Occurrence) : Prop :=
  ∃ before after p, t = before ++ after ∧ o.start = Text.size before ∧ LineStart before ∧
    strategy.choose after = some p ∧ p.occurrence o.start = o

theorem occurs_iff_standsIn : strategy.Occurs t o ↔ o.StandsIn t := by
  rw [standsIn_iff_exists_dividesFrom]
  constructor
  · rintro ⟨before, after, p, ht, hstart, hline, hchoose, heq⟩
    exact ⟨p, ⟨before, after, ht, hstart, hline, choose_eq_some_iff.1 hchoose⟩, heq⟩
  · rintro ⟨p, ⟨before, after, ht, hstart, hline, hp⟩, heq⟩
    exact ⟨before, after, p, ht, hstart, hline, choose_eq_some_iff.2 hp, heq⟩

end Strategy
end Division

namespace Occurrence

/-- What follows a line start is divided in at most one way.  At an occurrence that was found it is
divided in exactly one way, which gives the occurrence with its end and its nine texts.  And whatever
strategy divides the text, the search finds the same occurrences. -/
theorem find_unambiguous (t : Text) :
    (∀ start, {p : Division | p.DividesFrom t start}.Subsingleton) ∧
    (∀ o ∈ find t, ∃ p : Division,
      {q : Division | q.DividesFrom t o.start} = {p} ∧ p.occurrence o.start = o) ∧
    ∀ (strategy : Division.Strategy) (found : List Occurrence),
      find t = found ↔ LeftmostScan (strategy.Occurs t) 0 found := by
  refine ⟨Division.dividesFrom_subsingleton t, ?_, ?_⟩
  · intro o ho
    have hstands := (leftmostScan_find t).occurs o ho
    obtain ⟨p, hp, heq⟩ := Division.standsIn_iff_exists_dividesFrom.1 hstands
    refine ⟨p, ?_, heq⟩
    exact (Division.dividesFrom_subsingleton t o.start).eq_singleton_of_mem hp
  · intro strategy found
    have hoccurs : strategy.Occurs t = fun o => o.StandsIn t := by
      funext o
      exact propext Division.Strategy.occurs_iff_standsIn
    rw [hoccurs]
    constructor
    · rintro rfl
      exact leftmostScan_find t
    · intro h
      exact (leftmostScan_find t).unique h

end Occurrence
end BackingField
