import TenantOperator.Proofs.Interleaving.Synthesizers
import TenantOperator.Proofs.Store.Faults

/-! The ways in which synthesizing a pairing ends, whatever faults the store holds. Everything is
read before something is made, and the Deployment is made last: an error leaves the store as it was,
or with the Service only. -/
namespace TenantOperator
namespace Workload
open Program Store

variable {s x s' : Store} {p : Pairing} {ns : String}

/-- Why the hierarchy above a pairing is broken. -/
inductive Missing (s : Store) (ns : String) (p : Pairing) : Error → Prop where
  | tenant (h : s.find? .tenant (.inSpace ns p.content.tenantId) = none) :
    Missing s ns p (missingTenant p.name p.content.tenantId)
  | microservice (h : s.find? .microservice (.inSpace ns p.content.microserviceId) = none) :
    Missing s ns p (missingMicroservice p.name p.content.microserviceId)
  | inst (h : s.find? .inst (.clusterWide ns) = none) : Missing s ns p (missingInstance p.name ns)

/-- An object is there; it is `r` if its slot was free. -/
structure Present {k : Kind} (s s' : Store) (r : Resource k) : Prop where
  stored : (s'.find? k r.key).isSome
  fresh : s.find? k r.key = none → ∃ v, s'.find? k r.key = some (r.withVersion v)

theorem Present.ensured {k l : Kind} {r : Resource k} (h : Present s x r) (r' : Resource l) :
    Present s (x.ensured r') r where
  stored := isSome_find?_ensured_of_isSome h.stored
  fresh hfree := (h.fresh hfree).imp fun _ hv => find?_ensured_of_some hv

theorem Present.of_same {k : Kind} {r : Resource k} (h : Present s x r)
    (hx : ∀ l key, s'.find? l key = x.find? l key) : Present s s' r where
  stored := by
    rw [hx]
    exact h.stored
  fresh hfree := by
    rw [hx]
    exact h.fresh hfree

/-- How synthesizing ends: at a read that is struck, with what was there or is missing, or at one
of the two creates. -/
inductive Ends (s : Store) (ns : String) (p : Pairing) : Except Error Synthesis → Store → Prop where
  | unread {k : Kind} {e : Error} {s' : Store} (hs : s.Struck k .get e s')
    (h : k = .deployment ∨ s.find? .deployment (.inSpace ns p.name) = none) :
    Ends s ns p (.error e) s'
  | existing (h : (s.find? .deployment (.inSpace ns p.name)).isSome) : Ends s ns p (.ok .existing) s
  | orphaned {e : Error} (h : s.find? .deployment (.inSpace ns p.name) = none)
    (he : Missing s ns p e) : Ends s ns p (.error e) s
  | unserved {i : Instance} {t : Tenant} {m : Microservice} {e : Error} {s' : Store}
    (h : s.find? .deployment (.inSpace ns p.name) = none) (hp : Parents s ns p i t m)
    (hs : s.Struck .service .create e s') : Ends s ns p (.error e) s'
  | undeployed {i : Instance} {t : Tenant} {m : Microservice} {e : Error} {s' : Store}
    (h : s.find? .deployment (.inSpace ns p.name) = none) (hp : Parents s ns p i t m)
    (hs : (s.ensured (service i t m)).Struck .deployment .create e s') : Ends s ns p (.error e) s'
  | created {i : Instance} {t : Tenant} {m : Microservice}
    (h : s.find? .deployment (.inSpace ns p.name) = none) (hp : Parents s ns p i t m) :
    Ends s ns p (.ok .created) ((s.ensured (service i t m)).ensured (deployment i t m))

namespace Ends
variable {r : Except Error Synthesis} {e : Error}

theorem kept (h : Ends s ns p r s') {k : Kind} {key : Key} {y : Resource k}
    (hy : s.find? k key = some y) : s'.find? k key = some y := by
  cases h with
  | unread hs | unserved _ _ hs => rwa [hs.find?]
  | existing | orphaned => exact hy
  | undeployed _ _ hs =>
    rw [hs.find?]
    exact find?_ensured_of_some hy
  | created => exact find?_ensured_of_some (find?_ensured_of_some hy)

theorem reason (h : Ends s ns p (.error e) s') :
    Missing s ns p e ∨ ∃ f ∈ s.faults, f.error = e := by
  cases h with
  | unread hs | unserved _ _ hs =>
    obtain ⟨f, hf, -, -, he⟩ := hs.fault
    exact Or.inr ⟨f, hf, he⟩
  | orphaned _ he => exact Or.inl he
  | undeployed _ _ hs =>
    obtain ⟨f, hf, -, -, he⟩ := hs.fault
    rw [faults_ensured] at hf
    exact Or.inr ⟨f, hf, he⟩

end Ends

section undeployable

def undeployed : PendingFault := ⟨.deployment, .create, .failure⟩

def childless : Pairing := Pairing.forPair "dc1" "a" "c" .empty

end undeployable

end Workload
end TenantOperator
