import TenantOperator.Schedule.Backoff
import TenantOperator.Schedule.Locks

/-! Dispatching requests on a clock. Requests are taken as they arrive, each is handled by a call of
its own, and calls take turns: one goes on until it has to wait for a time or for the lock of its
entity. A lock that is given back goes to the call that has waited for it longest. Once the run is
cancelled no request is taken any more, and no call waits for another attempt. Waits are taken as
they are, without jitter. -/
namespace TenantOperator
namespace Dispatch

/-- A request, when it arrives, and how long one reconcile of its entity takes and ends. -/
structure Arrival where
  request : ReconcileRequest
  time : Nat
  work : Nat
  failure : Option Error

inductive Doing where
  /-- About to ask for the lock of its entity. -/
  | asking
  /-- In the queue for that lock. -/
  | waiting
  /-- Given the lock by the call that had it before. -/
  | granted
  | working (stop : Nat) (failure : Option Error)
  | resting (stop : Nat)

structure Task where
  call : Nat
  request : ReconcileRequest
  attempts : Nat
  doing : Doing

def Task.due? (t : Task) : Option Nat :=
  match t.doing with
  | .working stop _ => some stop
  | .resting stop => some stop
  | _ => none

/-- One attempt: when it started, when it ended, and for what. -/
structure Attempt where
  start : Nat
  stop : Nat
  request : ReconcileRequest

structure State where
  now : Nat := 0
  locks : Locks.State := {}
  /-- Tasks that can go on, the next one first. -/
  ready : List Task := []
  /-- Tasks in the queues for locks, in the order in which they joined. -/
  queued : List Task := []
  /-- Tasks that wait for a time. -/
  timed : List Task := []
  /-- Reconciles that are still to come, per entity in order. -/
  plan : List Arrival
  arrivals : List Arrival
  /-- When requests stopped being taken. -/
  closed : Option Nat := none
  cancelled : Bool := false
  log : List Attempt := []

namespace State

/-- Work and ending of the next reconcile of an entity; past the plan it is done at once. -/
def nextWork (s : State) (r : ReconcileRequest) : Nat × Option Error :=
  match s.plan.find? (·.request = r) with
  | some a => (a.work, a.failure)
  | none => (0, none)

/-- `t` goes on without a break. -/
def proceed (s : State) (t : Task) : State := { s with ready := t :: s.ready }

/-- `t` goes on when its time has come. -/
def rest (s : State) (t : Task) (stop : Nat) : State :=
  if stop ≤ s.now then s.proceed t else { s with timed := s.timed ++ [t] }

/-- Starts an attempt of `t`, which holds its lock. -/
def start (s : State) (t : Task) : State :=
  let (work, failure) := s.nextWork t.request
  let stop := s.now + work
  { s with
    plan := s.plan.eraseP (·.request = t.request)
    log := ⟨s.now, stop, t.request⟩ :: s.log }.rest
      { t with doing := .working stop failure, attempts := t.attempts + 1 } stop

/-- Gives the lock of `t` back, to the first task in its queue if there is one. -/
def release (s : State) (t : Task) : State :=
  match s.queued.find? (·.request = t.request) with
  | none => { s with locks := s.locks.steps [.release t.call] }
  | some next =>
    { s with
      locks := s.locks.steps [.release t.call, .acquire next.call]
      queued := s.queued.filter (·.call ≠ next.call)
      ready := s.ready ++ [{ next with doing := .granted }] }

def leave (s : State) (t : Task) : State :=
  { s with locks := s.locks.steps [.drop t.call, .reap t.call] }

/-- The call of `t` is broken off, and the table keeps its entry. -/
def breakOff (s : State) (t : Task) : State :=
  { s with locks := s.locks.steps [.drop t.call] }

/-- `t` goes on by `next` unless its call has ended. -/
def goOn (s : State) (t : Task) (ending : Ending Unit) (next : State → State) : State :=
  match ending with
  | .pending => next s
  | .result _ => s.leave t
  | .fault _ => s.breakOff t

/-- Ends an attempt of `t`, which rests before the next one. -/
def finish (c : RetryConfig) (s : State) (t : Task) (failure : Option Error) : State :=
  let result : Except Error Unit := match failure with
    | some e => .error e
    | none => .ok ()
  (s.release t).goOn t (c.settle .steady (t.attempts - 1) result) fun s =>
    if s.cancelled then s.leave t
    else
      let stop := s.now + c.wait (t.attempts - 1)
      s.rest { t with doing := .resting stop } stop

def turn (c : RetryConfig) (s : State) (t : Task) : State :=
  match t.doing with
  | .asking =>
    match s.locks.step (.acquire t.call) with
    | some locks => { s with locks }.start t
    | none => { s with queued := s.queued ++ [{ t with doing := .waiting }] }
  | .granted => s.start t
  | .working _ failure => s.finish c t failure
  | .resting _ => s.goOn t (c.resume (t.attempts - 1) s.cancelled) fun s =>
    { s with locks := s.locks.steps [.again t.call] }.proceed { t with doing := .asking }
  | .waiting => s

/-- Takes the requests that have arrived; after the last one the intake is closed. -/
def take (s : State) : State :=
  if s.closed.isSome then s
  else
    let due := s.arrivals.takeWhile (·.time ≤ s.now)
    let rest := s.arrivals.dropWhile (·.time ≤ s.now)
    let s := due.foldl (fun s a =>
      { s with
        locks := s.locks.enter a.request
        ready := s.ready ++ [⟨s.locks.callsMade, a.request, 0, .asking⟩] }) s
    { s with arrivals := rest, closed := if rest.isEmpty then some s.now else none }

def cancel (s : State) : State :=
  { s with
    cancelled := true
    closed := some (s.closed.getD s.now)
    ready := s.ready ++ s.timed.filter fun t => t.doing matches .resting _
    timed := s.timed.filter fun t => !(t.doing matches .resting _) }

def nextTime (cancelAt : Option Nat) (s : State) : Option Nat :=
  let arrival := if s.closed.isSome then [] else (s.arrivals.head?.map (·.time)).toList
  let cancel := if s.cancelled || (s.closed.isSome && s.timed.isEmpty) then [] else cancelAt.toList
  (s.timed.filterMap Task.due? ++ arrival ++ cancel).min?

/-- What happens when a moment begins: tasks whose time has come can go on, the run may be
cancelled, and requests arrive. -/
def moment (cancelAt : Option Nat) (time : Nat) (s : State) : State :=
  let s := { s with now := max s.now time }
  let isDue (t : Task) : Bool := t.due?.any (· ≤ s.now)
  let s := { s with ready := s.ready ++ s.timed.filter isDue, timed := s.timed.filter (!isDue ·) }
  (if cancelAt.any (· ≤ s.now) && !s.cancelled then s.cancel else s).take

def run (c : RetryConfig) (cancelAt : Option Nat) : Nat → State → State
  | 0, s => s
  | fuel + 1, s =>
    match s.ready with
    | t :: ready => run c cancelAt fuel ({ s with ready }.turn c t)
    | [] =>
      match s.nextTime cancelAt with
      | some time => run c cancelAt fuel (s.moment cancelAt time)
      | none => s

end State

/-- An attempt for each request and one more for each planned failure, each with the turns that
lead to it, end it and follow it, and the moments at which these begin. -/
def steps (arrivals : List Arrival) : Nat := 16 * arrivals.length + 4

/-- The whole run over a stream that ends with the arrivals given. -/
def simulate (c : RetryConfig) (cancelAt : Option Nat) (arrivals : List Arrival) : State :=
  State.run c cancelAt (steps arrivals) (State.moment cancelAt 0 { plan := arrivals, arrivals })

def Attempt.le (a b : Attempt) : Bool :=
  match compare a.start b.start, compare a.stop b.stop with
  | .lt, _ => true
  | .gt, _ => false
  | .eq, .lt => true
  | .eq, .gt => false
  | .eq, .eq => a.request.text ≤ b.request.text

def Attempt.insertOrdered (a : Attempt) : List Attempt → List Attempt
  | [] => [a]
  | b :: l => if a.le b then a :: b :: l else b :: insertOrdered a l

def State.attempts (s : State) : List Attempt := s.log.foldr Attempt.insertOrdered []

/-- When the run returned: the intake is closed and every call has returned. -/
def State.stopped (s : State) : Nat := s.now

end Dispatch
end TenantOperator
