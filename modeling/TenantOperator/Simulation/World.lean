import TenantOperator.Schedule.Backoff
import TenantOperator.Schedule.Locks

/-! Runs under interference. Every call of a program is recorded, and another writer may act after
a call was asked for and before it takes place: on the store itself, on its faults, or by
cancelling the run. -/
namespace TenantOperator
namespace Simulation

inductive Action where
  | change (run : Store → Except Error Unit × Store)
  | faults (l : List PendingFault)
  | cancel

/-- Actions that wait for a call; the first `skip` calls that match are let through. -/
structure Hook where
  verb : Verb
  kind : Kind
  name : Option String := none
  skip : Nat := 0
  actions : List Action

inductive Event where
  | called (summary : String)
  | hooked
  | hookFailed (e : Error)

structure World where
  store : Store := {}
  hooks : List Hook := []
  /-- Newest first. -/
  events : List Event := []
  /-- Whether the run that is going on can be cancelled. -/
  cancellable : Bool := false
  cancelled : Bool := false

def Hook.matches (h : Hook) (c : Call) : Bool :=
  h.verb = c.verb && h.kind = c.kind
    && (h.name.isNone || h.name == c.key?.map (·.name))

/-- The hook that goes off at a call, and the hooks that are left. Only the first one that matches
is looked at. -/
def takeHook (c : Call) : List Hook → Option Hook × List Hook
  | [] => (none, [])
  | h :: hs =>
    if h.matches c then
      if h.skip > 0 then (none, { h with skip := h.skip - 1 } :: hs) else (some h, hs)
    else
      let (taken, hs) := takeHook c hs
      (taken, h :: hs)

namespace World

def record (w : World) (e : Event) : World := { w with events := e :: w.events }

def act (w : World) : Action → World
  | .cancel => { w with cancelled := w.cancelled || w.cancellable }
  | .faults l => { w with store := w.store.addFaults l }
  | .change run =>
    let (r, store) := run w.store
    let w := { w with store }
    match r with
    | .ok _ => w
    | .error e => w.record (.hookFailed e)

/-- A call is asked for: it is recorded, and the hook it sets off acts. -/
def ask (w : World) (c : Call) : World :=
  let w := w.record (.called c.summary)
  match takeHook c w.hooks with
  | (none, hooks) => { w with hooks }
  | (some h, hooks) => h.actions.foldl act ({ w with hooks }.record .hooked)

/-- Runs a program; a cancelled run ends before the call that is next. -/
def observe {α : Type} : Program α → World → Except Error α × World
  | .done r, w => (r, w)
  | .call c next, w =>
    let w := w.ask c
    if w.cancelled then (.error .cancelled, w)
    else
      let (r, store) := w.store.perform c
      observe (next r) { w with store }

/-- One reconcile; a run that is cancelled already makes no call. -/
def reconcile (st : Settings) (r : ReconcileRequest) (w : World) : Except Error Outcome × World :=
  if w.cancelled then (.error .cancelled, w) else observe (TenantOperator.reconcile st r) w

/-- An upper bound for the faults and hooks that are still to come. -/
def disturbances (w : World) : Nat :=
  w.hooks.foldl (fun n h => h.actions.foldl (fun n action =>
      match action with
      | .faults l => n + l.length
      | _ => n + 1) (n + 1)) w.store.faults.length

/-- Attempts after which the outcome can no longer change. -/
def patience (c : RetryConfig) (w : World) : Nat :=
  if c.maxAttempts > 0 then c.maxAttempts else w.disturbances + 2

def handle (st : Settings) (c : RetryConfig) (r : ReconcileRequest) (w : World) :
    Attempts World Outcome :=
  retry c .steady World.cancelled (reconcile st r) (patience c w) w

/-- A request that was handled, as far as it has come. -/
structure Handled where
  request : ReconcileRequest
  attempts : Nat
  ending : Ending Outcome

/-- The steps of its call; one that is broken off does not come to take the table's entry away. -/
def Handled.steps (h : Handled) (call : Nat) : List Locks.Step :=
  match h.ending with
  | .fault _ => (Locks.callSteps call h.attempts).filter (· ≠ .reap call)
  | _ => Locks.callSteps call h.attempts

/-- Locks left when the calls for some requests have made their attempts and ended. -/
def trackedAfter (l : List Handled) : Nat :=
  (l.zipIdx.foldl (fun s (h, call) => (s.enter h.request).steps (h.steps call))
    ({} : Locks.State)).tracked

/-- First attempts in the order of the requests, until the run is cancelled. With a delay before
the next attempt the other requests come first. -/
def firstAttempts (st : Settings) (c : RetryConfig) : List ReconcileRequest → World →
    List Handled × World
  | [], w => ([], w)
  | r :: rs, w =>
    if w.cancelled then ([], w)
    else if c.initialDelay ≤ 0 then
      let a := handle st c r w
      let (later, w) := firstAttempts st c rs a.state
      (⟨r, a.count, a.ending⟩ :: later, w)
    else
      let (result, w) := reconcile st r w
      let (later, w') := firstAttempts st c rs w
      (⟨r, 1, c.settle .steady 0 result⟩ :: later, w')

/-- Goes on with a request after its first attempt, if that did not end it. -/
def further (st : Settings) (c : RetryConfig) (h : Handled) (w : World) : Handled × World :=
  match h.ending with
  | .pending =>
    match c.resume (h.attempts - 1) w.cancelled with
    | .pending =>
      let a := retryFrom c .steady World.cancelled (reconcile st h.request) (patience c w)
        h.attempts w
      (⟨h.request, a.count, a.ending⟩, a.state)
    | ending => ({ h with ending }, w)
  | _ => (h, w)

def furtherAttempts (st : Settings) (c : RetryConfig) : List Handled → World →
    List Handled × World
  | [], w => ([], w)
  | h :: hs, w =>
    let (h, w) := further st c h w
    let (hs, w) := furtherAttempts st c hs w
    (h :: hs, w)

/-- Handles the requests of a stream that ends with them. -/
def handleAll (st : Settings) (c : RetryConfig) (rs : List ReconcileRequest) (w : World) :
    List Handled × World :=
  let (l, w) := firstAttempts st c rs w
  furtherAttempts st c l w

end World
end Simulation

namespace Store

structure Entry where
  kind : Kind
  key : Key
  object : Resource kind

def entries (s : Store) : List Entry :=
  Kind.all.flatMap fun k => (s.table k).entries.map fun (key, r) => ⟨k, key, r⟩

/-- Objects of `new` that are not in `old`, or differ from what `old` has. -/
def changed (old new : Store) : List Entry :=
  new.entries.filter fun e => old.find? e.kind e.key != some e.object

def gone (old new : Store) : List Entry :=
  old.entries.filter fun e => (new.find? e.kind e.key).isNone

end Store
end TenantOperator
