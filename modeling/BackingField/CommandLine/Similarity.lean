import BackingField.Text.Basic

/-!
# Similar words

The similarity of two words after Jaro.  Two equal characters match if they are not too far apart,
and each character matches at most once.  The similarity is the mean of three ratios: of matches to
the length of either word, and of matches in the same order to all matches.  It is kept as a
fraction, so comparisons are exact.
-/

namespace BackingField
namespace Similarity

/-- How far apart characters that match may be. -/
def window (a b : Text) : Nat :=
  max a.length b.length / 2 - 1

/-- Strike out the first character equal to `c` at an index from `low` up to `high`. -/
def strike? (c : Char) (low high index : Nat) : List (Option Char) → Option (List (Option Char))
  | [] => none
  | d :: rest =>
      if low ≤ index ∧ index < high ∧ d = some c then
        some (none :: rest)
      else
        (strike? c low high (index + 1) rest).map (d :: ·)

/-- Match the characters of a word in turn.  The result are those that matched, and the other word
with its partners struck out. -/
def pair (reach index : Nat) (free : List (Option Char)) : Text → Text × List (Option Char)
  | [] => ([], free)
  | c :: word =>
      match strike? c (index - reach) (index + reach + 1) 0 free with
      | some free =>
          let (found, free) := pair reach (index + 1) free word
          (c :: found, free)
      | none => pair reach (index + 1) free word

/-- The characters of a word that are struck out. -/
def struck (word : Text) (free : List (Option Char)) : Text :=
  (List.zip word free).filterMap fun (c, mark) => if mark.isNone then some c else none

/-- Number of places in which two words differ. -/
def differences (a b : Text) : Nat :=
  ((List.zip a b).filter fun (c, d) => c ≠ d).length

/-- A ratio of two numbers. -/
structure Fraction where
  numerator : Nat
  denominator : Nat

/-- Whether a fraction is at most another. -/
def Fraction.le (p q : Fraction) : Bool :=
  p.numerator * q.denominator ≤ q.numerator * p.denominator

/-- Similarity of two words, between zero and one. -/
def jaro (a b : Text) : Fraction :=
  if a.isEmpty && b.isEmpty then
    ⟨1, 1⟩
  else
    let (found, free) := pair (window a b) 0 (b.map some) a
    let matched := found.length
    let moved := differences found (struck b free) / 2
    if matched = 0 then
      ⟨0, 1⟩
    else
      ⟨matched * matched * b.length + matched * matched * a.length +
          (matched - moved) * a.length * b.length,
        3 * matched * a.length * b.length⟩

/-- Similarity that a suggestion must exceed. -/
def threshold : Fraction := ⟨7, 10⟩

/-- The candidate most similar to a word among those similar enough, the last one if several are
equally similar. -/
def closest? {α : Type} (spelling : α → Text) (word : Text) (candidates : List α) : Option α :=
  let near := candidates.filter fun c => !(jaro word (spelling c)).le threshold
  near.foldl (fun best c =>
    match best with
    | none => some c
    | some b => if (jaro word (spelling b)).le (jaro word (spelling c)) then some c else some b)
    none

end Similarity
end BackingField
