/-! Settings every reconcile reads. -/
namespace TenantOperator

structure Settings where
  /-- Class set on routing tables, if any. -/
  ingressClass : Option String := none
  /-- How often a write that met a conflict is read again and reapplied. -/
  maxConflictRetries : Nat := 5
  deriving DecidableEq

/-- Rounds of one write: the first one and the retries, as far as 32 bits count them. -/
def Settings.writeAttempts (s : Settings) : Nat := min (s.maxConflictRetries + 1) (UInt32.size - 1)

end TenantOperator
