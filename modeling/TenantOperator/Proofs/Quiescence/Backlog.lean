import Mathlib.Data.Multiset.AddSub
import TenantOperator.Proofs.Store.Footprint
import TenantOperator.Tenancy.Reconcile

/-! A store over time, with the requests that wait to be processed. Making an entity adds a request
for it, whoever makes it; a request that was processed stays only if another attempt may help. -/
namespace TenantOperator

structure Backlog where
  store : Store
  pending : Multiset ReconcileRequest

/-- What happens next: a user creates an object, or a request is processed. -/
inductive Move where
  | create (k : Kind) (r : Resource k)
  | process (q : ReconcileRequest)

namespace Backlog

def start : Backlog := ⟨{}, 0⟩

/-- Requests for the entities that `s'` has and `s` has not. -/
def raised (s s' : Store) : List ReconcileRequest :=
  EntityKind.all.flatMap fun e =>
    ((s'.select e.kind none ∅).filter fun r => (s.find? e.kind r.key).isNone).map fun r =>
      ⟨e, r.key⟩

def remaining (pending : Multiset ReconcileRequest) (q : ReconcileRequest) :
    Except Error Outcome → Multiset ReconcileRequest
  | .ok _ => pending.erase q
  | .error e => if e.isRetryable then pending else pending.erase q

def step (st : Settings) (S : Backlog) : Move → Backlog
  | .create k r =>
    let s := (S.store.perform (.create k r)).2
    ⟨s, S.pending + raised S.store s⟩
  | .process q =>
    if q ∈ S.pending then
      let x := (reconcile st q).run S.store
      ⟨x.2, remaining S.pending q x.1 + raised S.store x.2⟩
    else S

def exec (st : Settings) (S : Backlog) (h : List Move) : Backlog := h.foldl (step st) S

theorem mem_raised {s s' : Store} (hs : s'.Filed) {e : EntityKind} {key : Key} :
    ⟨e, key⟩ ∈ raised s s' ↔ (s'.find? e.kind key).isSome ∧ s.find? e.kind key = none := by
  have hall : e ∈ EntityKind.all := by cases e <;> simp [EntityKind.all]
  simp only [raised, List.mem_flatMap, List.mem_map, List.mem_filter,
    Option.isNone_iff_eq_none, ReconcileRequest.mk.injEq]
  constructor
  · rintro ⟨e', -, r, ⟨hr, hnone⟩, rfl, rfl⟩
    obtain ⟨hf, -⟩ := hs.of_mem_select hr
    exact ⟨by rw [hf]; rfl, hnone⟩
  · rintro ⟨hsome, hnone⟩
    obtain ⟨r, hr⟩ := Option.isSome_iff_exists.1 hsome
    obtain rfl : r.key = key := hs hr
    have hpick : Store.picks none ∅ r.key r := by simp [Store.picks]; rfl
    exact ⟨e, hall, r, ⟨Store.mem_select.2 ⟨_, hr, hpick⟩, hnone⟩, rfl, rfl⟩

theorem mem_remaining_of_ne {pending : Multiset ReconcileRequest} {q q' : ReconcileRequest}
    (h : q' ∈ pending) (hne : q' ≠ q) (x : Except Error Outcome) : q' ∈ remaining pending q x := by
  have herase : q' ∈ pending.erase q := (Multiset.mem_erase_of_ne hne).2 h
  cases x with
  | ok o => exact herase
  | error e =>
    rw [remaining]
    split
    · exact h
    · exact herase

theorem mem_of_mem_remaining {pending : Multiset ReconcileRequest} {q q' : ReconcileRequest}
    {x : Except Error Outcome} (h : q' ∈ remaining pending q x) : q' ∈ pending := by
  cases x with
  | ok o => exact Multiset.mem_of_mem_erase h
  | error e =>
    rw [remaining] at h
    split at h
    · exact h
    · exact Multiset.mem_of_mem_erase h

end Backlog

/-- Moves that make valid entities and templates of one instance, or process a request. Pairings are
left to the reconciles. -/
def Move.Admissible (inst : String) : Move → Prop
  | .create .inst r =>
    r.metadata.name = some inst ∧ r.metadata.ns = none ∧ r.content.validate = .ok ()
  | .create .instTemplate r => r.metadata.ns = none
  | .create .microserviceTemplate r => r.metadata.ns = none
  | .create .tenant r => r.metadata.ns = some inst ∧ r.name ≠ ""
  | .create .microservice r =>
    r.metadata.ns = some inst ∧ r.name ≠ "" ∧ r.content.validate = .ok ()
  | .create _ _ => False
  | .process _ => True

end TenantOperator
