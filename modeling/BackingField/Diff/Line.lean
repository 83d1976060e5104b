import BackingField.Text.Basic

/-!
# Lines

A line ends behind a carriage return with a line feed, behind a line feed, or behind a lone carriage
return, and its end belongs to it.  Only the last line of a text may lack one.
-/

namespace BackingField
namespace Diff

/-- Lines of a text. -/
def lines : Text → List Text
  | [] => []
  | '\r' :: '\n' :: t => ['\r', '\n'] :: lines t
  | c :: t =>
      if c = '\n' ∨ c = '\r' then
        [c] :: lines t
      else
        match lines t with
        | [] => [[c]]
        | line :: rest => (c :: line) :: rest

/-- Whether a line has its end. -/
def isEnded (line : Text) : Bool :=
  match line.getLast? with
  | some c => c == '\n' || c == '\r'
  | none => false

/-- The lines of a text make up the text. -/
theorem flatten_lines (t : Text) : (lines t).flatten = t := by
  fun_induction lines t with
  | case1 => rfl
  | case2 t ih => simp [ih]
  | case3 c t _ _ ih => simp [ih]
  | case4 c t _ _ hlines ih => simp_all
  | case5 c t _ _ line rest hlines ih => simp_all

end Diff
end BackingField
