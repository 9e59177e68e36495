import TenantOperator.Text.Blank

/-! How the characters of a pattern are read. -/
namespace TenantOperator
namespace Pattern

structure Mode where
  /-- Blanks and comments between the parts of a pattern mean nothing. -/
  spaced : Bool := false
  /-- Characters are those of Unicode, not single bytes. -/
  unicode : Bool := true
  deriving DecidableEq

/-- The text after blanks and comments. A comment goes from a hash sign to the end of its line. -/
def afterGaps (inComment : Bool) : List Char → List Char
  | [] => []
  | c :: l =>
    if inComment then afterGaps (c ≠ '\n') l
    else if c = '#' then afterGaps true l
    else if Text.isBlank c then afterGaps false l
    else c :: l

theorem length_afterGaps_le (b : Bool) (l : List Char) : (afterGaps b l).length ≤ l.length := by
  induction l generalizing b with
  | nil => simp [afterGaps]
  | cons c l ih =>
    simp only [afterGaps]
    split
    · exact Nat.le_succ_of_le (ih _)
    · split
      · exact Nat.le_succ_of_le (ih _)
      · split
        · exact Nat.le_succ_of_le (ih _)
        · simp

namespace Mode

def skip (m : Mode) (l : List Char) : List Char := if m.spaced then afterGaps false l else l

theorem length_skip_le (m : Mode) (l : List Char) : (m.skip l).length ≤ l.length := by
  unfold skip
  split
  · exact length_afterGaps_le _ _
  · exact Nat.le_refl _

/-- The next character that counts. A hash sign is passed over, the comment behind it is not. -/
def peek? (m : Mode) (l : List Char) : Option Char :=
  if m.spaced then
    match l.dropWhile Text.isBlank with
    | '#' :: t => (t.dropWhile Text.isBlank).head?
    | t => t.head?
  else l.head?

end Mode

/-- One step of a scan: it ends the scan, or goes on with the text that is left. -/
inductive Step (σ α : Type) where
  | done (a : α) (rest : List Char)
  | more (s : σ) (rest : List Char)

/-- Takes steps to the end. Every step has to leave less text. -/
def scan {σ α : Type} (step : σ → List Char → Option (Step σ α)) (s : σ) (l : List Char) :
    Option (α × List Char) :=
  match step s l with
  | none => none
  | some (.done a rest) => some (a, rest)
  | some (.more s rest) => if rest.length < l.length then scan step s rest else none
termination_by l.length

end Pattern
end TenantOperator
