import TenantOperator.Decimal.Binary64

/-! The fewest decimal digits that read back as a given double, found on exact ratios: for one
digit, two digits and so on, the two neighbours of the value on that decimal grid are tried. -/
namespace TenantOperator
namespace Decimal

/-- The decimal `digits * 10 ^ exponent`. -/
structure Scientific where
  digits : Nat
  exponent : Int
  deriving DecidableEq

/-- The reals that round to a double, as multiples of `num / den`: the double itself is
`value`, and the two ends belong to the interval when `closed` is set. -/
structure Interval where
  low : Nat
  value : Nat
  high : Nat
  num : Nat
  den : Nat
  closed : Bool

def Interval.of (v : Binary64.Magnitude) : Interval :=
  let quarter : Nat × Nat := Binary64.Magnitude.ratio ⟨1, v.exponent⟩
  let m := v.significand
  { low := if m = Nat.pow 2 52 && v.exponent > 0 then 4 * m - 1 else 4 * m - 2
    value := 4 * m
    high := 4 * m + 2
    num := quarter.1
    den := 4 * quarter.2
    closed := m % 2 = 0 }

def Interval.has (i : Interval) (n d : Nat) : Bool :=
  let x := n * i.den
  let unit := i.num * d
  if i.closed then i.low * unit ≤ x && x ≤ i.high * unit
  else i.low * unit < x && x < i.high * unit

/-- Number of digits before the point: the least `p` with `num / den < 10 ^ p`. -/
def pointPosition (num den : Nat) : Int :=
  if num ≥ den then (Nat.toDigits 10 (num / den)).length
  else 1 - (leadingZeros 400 num : Nat)
where
  leadingZeros : Nat → Nat → Nat
  | 0, _ => 0
  | fuel + 1, n => if n ≥ den then 0 else leadingZeros fuel (n * 10) + 1

/-- Whether the remainder `r` of a division by `den` makes its quotient `c` the nearer neighbour; a
value half way between two goes to the even one. -/
def isDown (c r den : Nat) : Bool := 2 * r < den || (2 * r = den && c % 2 = 0)

/-- The grid of step `10 ^ e`: candidates `c * 10 ^ e` below and above the value. -/
def onGrid? (i : Interval) (e : Int) : Option Scientific :=
  let up := Nat.pow 10 e.toNat
  let down := Nat.pow 10 (-e).toNat
  let num := i.value * i.num * down
  let den := i.den * up
  let c := num / den
  let below := i.has (c * up) down
  let above := i.has ((c + 1) * up) down
  let nearer := if isDown c (num % den) den then c else c + 1
  match below, above with
  | true, true => some ⟨nearer, e⟩
  | true, false => some ⟨c, e⟩
  | false, true => some ⟨c + 1, e⟩
  | false, false => none

def dropZeros : Nat → Scientific → Scientific
  | 0, x => x
  | fuel + 1, x =>
    if x.digits % 10 = 0 && x.digits ≠ 0 then dropZeros fuel ⟨x.digits / 10, x.exponent + 1⟩ else x

def shortest (v : Binary64.Magnitude) : Scientific :=
  if v.significand = 0 then ⟨0, 0⟩ else
    let i := Interval.of v
    let p := pointPosition (i.value * i.num) i.den
    match (List.range 17).findSome? fun n => onGrid? i (p - (n + 1 : Nat)) with
    | some x => dropZeros 20 x
    | none => ⟨i.value * i.num / i.den, 0⟩

example : shortest (Binary64.ofRatio false 1 10).magnitude = ⟨1, -1⟩ := by decide +kernel
example : shortest ⟨1, 0⟩ = ⟨5, -324⟩ := by decide +kernel
example : (shortest (Binary64.ofRatio false 4158056966252847 4).magnitude).digits =
    10395142415632118 := by decide +kernel

end Decimal
end TenantOperator
