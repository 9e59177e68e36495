import TenantOperator.Tenancy.Reconcile

/-! Locks of entities. Every call that handles a request shares the lock its entity has in a table,
holds it for each of its attempts, and takes the table's entry away when nobody else has it. The
steps below are atomic; any order of enabled steps may happen. -/
namespace TenantOperator
namespace Locks

inductive Phase where
  /-- It has the lock of its entity and waits to hold it. -/
  | waiting
  | running
  /-- Between two attempts. -/
  | paused
  /-- It has given up its share of the lock. -/
  | dropped
  deriving DecidableEq

structure Caller where
  request : ReconcileRequest
  lock : Nat
  phase : Phase
  deriving DecidableEq

structure State where
  /-- The lock in use for each entity. -/
  table : List (ReconcileRequest × Nat) := []
  /-- Calls that have not returned. -/
  callers : List (Nat × Caller) := []
  locksMade : Nat := 0
  callsMade : Nat := 0
  deriving DecidableEq

inductive Step where
  | enter (r : ReconcileRequest)
  | acquire (call : Nat)
  | release (call : Nat)
  /-- Another attempt is due. -/
  | again (call : Nat)
  | drop (call : Nat)
  /-- Takes the table's entry away if only the table has the lock, and returns. -/
  | reap (call : Nat)
  deriving DecidableEq

namespace State

def caller? (s : State) (call : Nat) : Option Caller := s.callers.lookup call

def setPhase (s : State) (call : Nat) (p : Phase) : State :=
  { s with callers := s.callers.map fun (i, c) =>
      if i = call then (i, { c with phase := p }) else (i, c) }

/-- Whether some call is in an attempt under `lock`. -/
def isHeld (s : State) (lock : Nat) : Bool :=
  s.callers.any fun (_, c) => c.lock = lock && c.phase = .running

def isShared (s : State) (lock : Nat) : Bool :=
  s.callers.any fun (_, c) => c.lock = lock && c.phase != .dropped

def tracked (s : State) : Nat := s.table.length

def enter (s : State) (r : ReconcileRequest) : State :=
  let (lock, s) := match s.table.lookup r with
    | some lock => (lock, s)
    | none =>
      (s.locksMade, { s with table := (r, s.locksMade) :: s.table, locksMade := s.locksMade + 1 })
  { s with
    callers := s.callers ++ [(s.callsMade, ⟨r, lock, .waiting⟩)]
    callsMade := s.callsMade + 1 }

def reap (s : State) (call : Nat) (r : ReconcileRequest) : State :=
  let s := { s with callers := s.callers.filter (·.1 ≠ call) }
  match s.table.lookup r with
  | some lock => if s.isShared lock then s else { s with table := s.table.filter (·.1 ≠ r) }
  | none => s

/-- The state after a step, where the step is enabled. -/
def step (s : State) : Step → Option State
  | .enter r => some (s.enter r)
  | .acquire call =>
    match s.caller? call with
    | some c =>
      if c.phase = .waiting && !s.isHeld c.lock then some (s.setPhase call .running) else none
    | none => none
  | .release call =>
    match s.caller? call with
    | some c => if c.phase = .running then some (s.setPhase call .paused) else none
    | none => none
  | .again call =>
    match s.caller? call with
    | some c => if c.phase = .paused then some (s.setPhase call .waiting) else none
    | none => none
  | .drop call =>
    match s.caller? call with
    | some c => if c.phase = .paused then some (s.setPhase call .dropped) else none
    | none => none
  | .reap call =>
    match s.caller? call with
    | some c => if c.phase = .dropped then some (s.reap call c.request) else none
    | none => none

/-- Steps that are not enabled are left out. -/
def steps (s : State) (l : List Step) : State := l.foldl (fun s st => (s.step st).getD s) s

end State

/-- The steps of a call after it entered: `attempts` of them, and the return. -/
def callSteps (call attempts : Nat) : List Step :=
  ((List.range attempts).flatMap fun n =>
    (if n = 0 then [] else [Step.again call]) ++ [.acquire call, .release call])
  ++ [.drop call, .reap call]

end Locks
end TenantOperator
