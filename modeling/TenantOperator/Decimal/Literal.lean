/-! Texts that are numbers: whole ones, ones with a point or an exponent, and the words for values
that are not finite. -/
namespace TenantOperator
namespace Decimal

def unsign : List Char → List Char
  | '+' :: l => l
  | '-' :: l => l
  | l => l

def isDigits (l : List Char) : Bool := !l.isEmpty && l.all Char.isDigit

def isExponent : List Char → Bool
  | [] => true
  | c :: l => (c = 'e' || c = 'E') && isDigits (unsign l)

/-- Digits stand before the point or behind it. -/
def isMagnitude (l : List Char) : Bool :=
  let whole := l.takeWhile Char.isDigit
  match l.dropWhile Char.isDigit with
  | '.' :: rest =>
    isDigits (whole ++ rest.takeWhile Char.isDigit) && isExponent (rest.dropWhile Char.isDigit)
  | rest => isDigits whole && isExponent rest

def words : List String := ["inf", "infinity", "nan"]

def isNumber (s : String) : Bool :=
  let l := unsign s.toList
  isMagnitude l || words.contains (String.ofList (l.map Char.toLower))

example : ["1", "+.5e-3", "-Inf", "NaN", "7.", "+0"].all isNumber = true := by decide +kernel
example : ["", "+", ".", "e5", "1e", "--1", "0x1", " 1"].any isNumber = false := by decide +kernel

end Decimal
end TenantOperator
