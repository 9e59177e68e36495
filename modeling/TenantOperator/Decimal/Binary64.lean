/-! Double precision numbers as their 64-bit words, with exact conversions: every operation rounds
one exact ratio to the nearest word, ties to the even one. -/
namespace TenantOperator

structure Binary64 where
  bits : UInt64
  deriving DecidableEq, Inhabited

namespace Binary64

/-- A finite magnitude is `significand * 2 ^ (exponent - 1074)`. -/
structure Magnitude where
  significand : Nat
  exponent : Nat
  deriving DecidableEq

def isNegative (x : Binary64) : Bool := x.bits.toNat ≥ Nat.pow 2 63

def word (x : Binary64) : Nat := x.bits.toNat % Nat.pow 2 63

def isFinite (x : Binary64) : Bool := x.word < 0x7FF0000000000000

def isZero (x : Binary64) : Bool := x.word = 0

def magnitude (x : Binary64) : Magnitude :=
  let e := x.word / Nat.pow 2 52
  let f := x.word % Nat.pow 2 52
  if e = 0 then ⟨f, 0⟩ else ⟨f + Nat.pow 2 52, e - 1⟩

def Magnitude.ratio (v : Magnitude) : Nat × Nat :=
  if v.exponent ≥ 1074 then (v.significand * Nat.pow 2 (v.exponent - 1074), 1)
  else (v.significand, Nat.pow 2 (1074 - v.exponent))

def roundHalfEven (num den : Nat) : Nat :=
  let a := num / den
  let r := num % den
  if 2 * r < den then a else if 2 * r > den then a + 1 else a + a % 2

/-- The largest `e` with `2 ^ e ≤ num / den`, both positive. -/
def log2Ratio (num den : Nat) : Int :=
  let k : Int := (num.log2 : Int) - den.log2
  let atLeast :=
    if k ≥ 0 then num ≥ den * Nat.pow 2 k.toNat else num * Nat.pow 2 (-k).toNat ≥ den
  if atLeast then k else k - 1

def ofWord (negative : Bool) (word : Nat) : Binary64 :=
  ⟨UInt64.ofNat (if negative then word + Nat.pow 2 63 else word)⟩

/-- Doubles near `num / den` are multiples of `2 ^ (exponent - 1074)`. -/
def gridExponent (num den : Nat) : Nat := (log2Ratio num den + 1022).toNat

def onGrid (exponent num den : Nat) : Nat × Nat :=
  if exponent ≥ 1074 then (num, den * Nat.pow 2 (exponent - 1074))
  else (num * Nat.pow 2 (1074 - exponent), den)

/-- Nearest double of `num / den`; past the largest one it is infinite. -/
def ofRatio (negative : Bool) (num den : Nat) : Binary64 :=
  if num = 0 then ofWord negative 0 else
    let exponent := gridExponent num den
    let scaled := onGrid exponent num den
    ofWord negative
      (min (exponent * Nat.pow 2 52 + roundHalfEven scaled.1 scaled.2) 0x7FF0000000000000)

def ofNat (n : Nat) : Binary64 := ofRatio false n 1

def negate (x : Binary64) : Binary64 := ofWord (!x.isNegative) x.word

def mul (x y : Binary64) : Binary64 :=
  let a := x.magnitude.ratio
  let b := y.magnitude.ratio
  ofRatio (x.isNegative != y.isNegative) (a.1 * b.1) (a.2 * b.2)

/-- Quotient of finite doubles, the second one not zero. -/
def div (x y : Binary64) : Binary64 :=
  let a := x.magnitude.ratio
  let b := y.magnitude.ratio
  ofRatio (x.isNegative != y.isNegative) (a.1 * b.2) (a.2 * b.1)

/-- Sum of finite doubles that are not negative. -/
def add (x y : Binary64) : Binary64 :=
  let a := x.magnitude.ratio
  let b := y.magnitude.ratio
  ofRatio false (a.1 * b.2 + b.1 * a.2) (a.2 * b.2)

def toRat (x : Binary64) : Rat :=
  let a := x.magnitude.ratio
  let r := mkRat a.1 a.2
  if x.isNegative then -r else r

def ofRat (r : Rat) : Binary64 := ofRatio (r < 0) r.num.natAbs r.den

/-- `significand * 10 ^ exponent` with one rounding of the significand, one of the power of ten and
one of the result; powers below `10 ^ -308` are divided off in several steps. `none` when the
result is too large. -/
def ofParts (significand : Nat) (exponent : Int) : Option Binary64 :=
  let f := ofNat significand
  match exponent with
  | .ofNat e =>
    if e ≤ 308 then
      let r := f.mul (ofNat (Nat.pow 10 e))
      if r.isFinite then some r else none
    else if f.isZero then some f else none
  | .negSucc e => some (shrink (e / 308 + 1) f (e + 1))
where
  shrink : Nat → Binary64 → Nat → Binary64
  | 0, f, _ => f
  | steps + 1, f, e =>
    if e ≤ 308 then f.div (ofNat (Nat.pow 10 e))
    else if f.isZero then f
    else shrink steps (f.div (ofNat (Nat.pow 10 308))) (e - 308)

example : (ofRatio false 1 10).bits = 0x3FB999999999999A := by decide +kernel
example : (ofRatio false 1 1).bits = 0x3FF0000000000000 := by decide +kernel
example : (ofRatio true 1 (2 ^ 1074)).bits = 0x8000000000000001 := by decide +kernel

end Binary64
end TenantOperator
