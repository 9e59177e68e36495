/-! Reading whole numbers within bounds. Digits are taken from the left, and the first one that is
none or that leads out of bounds decides what is wrong. -/
namespace TenantOperator
namespace Decimal

inductive WholeFault where
  | empty
  | invalidDigit
  | tooLarge
  | tooSmall
  | outside (n low high : Int)
  deriving DecidableEq

def WholeFault.message : WholeFault → String
  | .empty => "cannot parse integer from empty string"
  | .invalidDigit => "invalid digit found in string"
  | .tooLarge => "number too large to fit in target type"
  | .tooSmall => "number too small to fit in target type"
  | .outside n low high => toString n ++ " is not in " ++ toString low ++ "..=" ++ toString high

/-- Goes on from `n` with more digits; `excess` is what is wrong with a number above `limit`. -/
def digits (limit : Nat) (excess : WholeFault) : Nat → List Char → Except WholeFault Nat
  | n, [] => .ok n
  | n, c :: l =>
    if c.isDigit then
      let n := 10 * n + (c.toNat - '0'.toNat)
      if n ≤ limit then digits limit excess n l else .error excess
    else .error .invalidDigit

def unsigned (limit : Nat) (excess : WholeFault) : List Char → Except WholeFault Nat
  | [] => .error .invalidDigit
  | l => digits limit excess 0 l

/-- A number up to `limit`, with or without a plus sign. -/
def natural (limit : Nat) (s : String) : Except WholeFault Nat :=
  match s.toList with
  | [] => .error .empty
  | '+' :: l => unsigned limit .tooLarge l
  | l => unsigned limit .tooLarge l

def integer64 (s : String) : Except WholeFault Int :=
  match s.toList with
  | [] => .error .empty
  | '-' :: l => (unsigned (Nat.pow 2 63) .tooSmall l).map fun n => -n
  | '+' :: l => (unsigned (Nat.pow 2 63 - 1) .tooLarge l).map Int.ofNat
  | l => (unsigned (Nat.pow 2 63 - 1) .tooLarge l).map Int.ofNat

/-- A number of 64 bits that is from 0 to `high`. -/
def bounded (high : Nat) (s : String) : Except WholeFault Nat := do
  let n ← integer64 s
  if 0 ≤ n ∧ n ≤ high then return n.toNat else throw (.outside n 0 high)

end Decimal
end TenantOperator
