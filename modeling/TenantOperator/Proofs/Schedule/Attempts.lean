import Mathlib.Data.Nat.Find
import Mathlib.Order.Bounds.Basic
import TenantOperator.Proofs.Schedule.Times

/-! Which attempt is the last. That is up to the outcome, to the limit, to the cancellation by the
time of the wait, and to whether a timer can keep the delays; where it can, these decide when
attempts are made and not whether another one follows. A bound on the attempts only cuts a run off,
so a run that never ends is one that no bound sees the end of. -/
namespace TenantOperator
namespace Attempts
open RetryConfig

section operation
variable {σ α : Type} (c : RetryConfig) (jitter : Jitter) (cancelled : σ → Bool)
  (operation : σ → Except Error α × σ) (st : σ)

variable {c jitter cancelled operation st}

end operation

section sequence
variable {α : Type} (c : RetryConfig) (jitter : Jitter) (outcomes : Nat → Except Error α)
  (cancelAt : Option Nat)

/-- Attempts with given outcomes, counted from 1; the state counts the calls. -/
def replay : Nat → Except Error α × Nat := fun n => (outcomes (n + 1), n + 1)

/-- A token that is cancelled during an attempt, and stays so. -/
def cancelledFrom : Nat → Bool := fun n => cancelAt.any fun k => k ≤ n

/-- An outcome that no other attempt may change. -/
def Conclusive : Except Error α → Prop
  | .ok _ => True
  | .error e => e.isRetryable = false

instance : DecidablePred (Conclusive (α := α)) := fun r =>
  match r with
  | .ok _ => isTrue trivial
  | .error e => inferInstanceAs (Decidable (e.isRetryable = false))

/-- The outcome of the `n`-th attempt is the result: conclusive, or the attempts are used up. -/
def Closes (n : Nat) (r : Except Error α) : Prop :=
  Conclusive r ∨ 0 < c.maxAttempts ∧ n = c.maxAttempts

instance (n : Nat) (r : Except Error α) : Decidable (Closes c n r) :=
  inferInstanceAs (Decidable (_ ∨ _))

/-- How a run may end with an attempt. The wait is measured before the cancellation is looked for,
the delay that follows it when the wait is over. -/
inductive Ends : Nat → Ending α → Prop where
  | closes {n : Nat} (h : Closes c (n + 1) (outcomes (n + 1))) :
      Ends (n + 1) (.result (outcomes (n + 1)))
  | waitFault {n : Nat} {f : TimeFault} (h : ¬Closes c (n + 1) (outcomes (n + 1)))
      (hf : c.waitFault jitter n = some f) : Ends (n + 1) (.fault f)
  | cancelled {n : Nat} (h : ¬Closes c (n + 1) (outcomes (n + 1)))
      (hf : c.waitFault jitter n = none) (hk : ∃ k, cancelAt = some k ∧ k ≤ n + 1) :
      Ends (n + 1) (.result (.error .cancelled))
  | growthFault {n : Nat} {f : TimeFault} (h : ¬Closes c (n + 1) (outcomes (n + 1)))
      (hf : c.waitFault jitter n = none) (hk : ¬∃ k, cancelAt = some k ∧ k ≤ n + 1)
      (hg : c.growthFault n = some f) : Ends (n + 1) (.fault f)

variable {c jitter outcomes cancelAt}

variable (c jitter outcomes cancelAt)

/-- The run of a retry, seen for as many attempts as it is let make. -/
def run (fuel : Nat) : Attempts Nat α :=
  retry c jitter (cancelledFrom cancelAt) (replay outcomes) fuel 0

variable {c jitter outcomes cancelAt}

variable (c jitter outcomes cancelAt)

end sequence

section outage

def outage : Nat → Except Error Unit := fun n => if n < 3 then .error (.store "down") else .ok ()

end outage

end Attempts
end TenantOperator
