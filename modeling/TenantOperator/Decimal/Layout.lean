import TenantOperator.Decimal.Shortest

/-! Texts of doubles. A layout says which decimal exponents are written positionally and how the
others write their exponent. -/
namespace TenantOperator
namespace Decimal

structure Layout where
  /-- Decimal exponents from `least` to `most` are written positionally. -/
  least : Int
  most : Int
  plusSign : Bool

def zeros (n : Nat) : String := String.ofList (List.replicate n '0')

/-- The text of `x`, the point after its first digit being worth `10 ^ e`. -/
def Layout.unsigned (l : Layout) (x : Scientific) : String :=
  let ds := Nat.toDigits 10 x.digits
  let e : Int := x.exponent + ds.length - 1
  if l.least ≤ e && e ≤ l.most then
    if e < 0 then "0." ++ zeros ((-e).toNat - 1) ++ String.ofList ds
    else
      let whole := e.toNat + 1
      if ds.length ≤ whole then String.ofList ds ++ zeros (whole - ds.length) ++ ".0"
      else String.ofList (ds.take whole) ++ "." ++ String.ofList (ds.drop whole)
  else
    let mantissa := match ds with
      | [] => "0"
      | [d] => String.singleton d
      | d :: rest => String.singleton d ++ "." ++ String.ofList rest
    let exponent := if e < 0 then "-" ++ toString (-e).toNat
      else (if l.plusSign then "+" else "") ++ toString e.toNat
    mantissa ++ "e" ++ exponent

def Layout.text (l : Layout) (x : Binary64) : String :=
  (if x.isNegative then "-" else "") ++ l.unsigned (shortest x.magnitude)

example : (Layout.text ⟨-5, 15, true⟩ (Binary64.ofRatio false 3 2)) = "1.5" := by decide +kernel
example : (Layout.text ⟨-5, 15, true⟩ (Binary64.ofNat (10 ^ 16))) = "1e+16" := by decide +kernel

end Decimal
end TenantOperator
