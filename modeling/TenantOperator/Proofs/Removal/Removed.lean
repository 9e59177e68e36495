import TenantOperator.Proofs.Removal.Rooted
import TenantOperator.Proofs.Interleaving.Entry

/-! Deleting a pairing and reconciling its key. The tenant is learned from the children alone, so a
pairing that has got one leaves nothing behind, and of one without children the bundle and the
routing table keep whatever other reconciles wrote there for it. -/
namespace TenantOperator
open Program Store

namespace Routing
variable {ns tenant : String}

def servicesOf (table : Ingress) : List String :=
  ((table.content.spec.bind (·.rules)).getD []).flatMap fun r =>
    (r.http.getD []).filterMap fun p => p.backend.service.map (·.name)

theorem servicesOf_ofRules {cls : Option String} {m : SortedMap String String} :
    servicesOf (ofRules ns tenant cls m) = m.entries.map (·.2) := by
  show (m.entries.map fun e => routePath e.1 e.2).filterMap
    (fun p => p.backend.service.map (·.name)) ++ [] = _
  rw [List.append_nil, List.filterMap_map]
  exact congrFun List.filterMap_eq_map m.entries

/-- Services that the stored table of a tenant routes to; a missing one routes to none. -/
def services (s : Store) (ns tenant : String) : List String :=
  ((s.find? .ingress (tableKey ns tenant)).map servicesOf).getD []

theorem exists_of_find?_rules {ps : List ResolvedPairing} {path service : String}
    (h : (rules ns tenant ps).find? path = some service) : ∃ p ∈ ps, p.name = service := by
  rw [find?_rules] at h
  obtain ⟨p, hp, hname⟩ := Option.map_eq_some_iff.1 h
  exact ⟨p, List.mem_of_find?_eq_some hp, hname⟩

theorem services_of_current {st : Settings} {s : Store} (h : Current st s ns tenant) :
    services s ns tenant = (rules ns tenant (s.resolved ns tenant)).values := by
  rcases current_iff.1 h with ⟨hnil, hnone⟩ | ⟨-, stored, hs, hcur⟩
  · rw [services, hnone, hnil]
    rfl
  · rw [services, hs, Option.map_some, Option.getD_some, servicesOf, (isCurrent_iff.1 hcur).1,
      ← servicesOf, servicesOf_ofRules]
    rfl

theorem exists_of_mem_services {st : Settings} {s : Store} (h : Current st s ns tenant)
    {service : String} (hmem : service ∈ services s ns tenant) :
    ∃ p ∈ s.resolved ns tenant, p.name = service := by
  rw [services_of_current h] at hmem
  obtain ⟨⟨path, _⟩, he, rfl⟩ := List.mem_map.1 hmem
  exact exists_of_find?_rules (SortedMap.find?_eq_some_iff.2 he)

/-- A current table does not route to a name that no pairing has. -/
theorem notMem_services_of_current {st : Settings} {s : Store} (hs : s.Filed)
    (h : Current st s ns tenant) {name : String}
    (hp : s.find? .pairing (.inSpace ns name) = none) : name ∉ services s ns tenant := by
  intro hmem
  obtain ⟨p, hp', rfl⟩ := exists_of_mem_services h hmem
  rw [Store.resolved, ResolvedPairing.mem_sortByName, List.mem_filterMap] at hp'
  obtain ⟨q, hq, hres⟩ := hp'
  obtain ⟨m, -, rfl⟩ := Option.map_eq_some_iff.1 hres
  rw [show ResolvedPairing.name ⟨q, m.content.functionalArea⟩ = q.name from rfl,
    (hs.of_mem_space hq).2.1] at hp
  cases hp

end Routing

theorem Bundle.mem_areas_of_synced {s : Store} {ns tenant area : String}
    (h : Synced s ns tenant) (hc : (entries s ns tenant).contains area) :
    area ∈ s.areas ns tenant := by
  rw [← upserted_of_none h] at hc
  exact (contains_entries_mergeInto.1 hc).2

namespace Teardown

/-- Nothing is left of a pairing: it has no children, its tenant's table is what the pairings that
are there ask for and does not route to it, and the bundle has entries for areas in use only. -/
structure Removed (st : Settings) (s : Store) (ns tenant name : String) : Prop where
  deployment : s.find? .deployment (.inSpace ns name) = none
  service : s.find? .service (.inSpace ns name) = none
  unrouted : name ∉ Routing.services s ns tenant
  table : Routing.Current st s ns tenant
  entries : ∀ area, (Bundle.entries s ns tenant).contains area → area ∈ s.areas ns tenant

/-- Clearing removes all of a pairing whose tenant exists. -/
theorem removed_cleared (st : Settings) {s : Store} {ns tenant name : String} (hs : s.Calm)
    (ht : (s.find? .tenant (.inSpace ns tenant)).isSome)
    (hp : s.find? .pairing (.inSpace ns name) = none) :
    Removed st (cleared st ns name tenant s) ns tenant name := by
  have hset := settled_cleared st ns name tenant ht
  have hgone : (cleared st ns name tenant s).find? .pairing (.inSpace ns name) = none := by
    rw [agreeOff_cleared st ns name tenant s _ _ (by simp [Bundle.Shared, Children]), hp]
  exact
    { deployment := find?_cleared st ns name tenant (Or.inl rfl)
      service := find?_cleared st ns name tenant (Or.inr rfl)
      unrouted := Routing.notMem_services_of_current (calm_cleared st ns name tenant hs).filed
        hset.2 hgone
      table := hset.2
      entries := fun _ => Bundle.mem_areas_of_synced hset.1 }

end Teardown

namespace Reconcile

/-- From a store of declared entities reconciles that end well lead to a store with a pairing of a
tenant that exists, and the pairing is deleted. The reconcile of its key ends well, and nothing of
the pairing is left if and only if it had a child, or nothing was left when it was deleted. -/
theorem removed_iff_of_deleted (st : Settings) {s₀ s : Store} (hs : s₀.Reached)
    (hf : s₀.faults = []) (hd : ∀ k key, (s₀.find? k key).isSome → k.Declared)
    (hl : Reaches st s₀ s) {ns name tenant : String} {p : Pairing}
    (hp : s.find? .pairing (.inSpace ns name) = some p) (ht : p.content.tenantId = tenant)
    (halive : (s.find? .tenant (.inSpace ns tenant)).isSome) :
    ∃ s', (reconcile st ⟨.pairing, .inSpace ns name⟩).run (s.remove .pairing (.inSpace ns name)) =
        (.ok .tornDown, s') ∧
      (Teardown.Removed st s' ns tenant name ↔
        ((s.find? .deployment (.inSpace ns name)).isSome ∨
          (s.find? .service (.inSpace ns name)).isSome) ∨
        Teardown.Removed st (s.remove .pairing (.inSpace ns name)) ns tenant name) := by
  have hroot := rooted_of_reaches st (rooted_of_declared ⟨hs.filed, hf⟩ hd) hl
  have hcalm := hroot.calm.remove .pairing (.inSpace ns name)
  have hgone := s.find?_remove_self .pairing (.inSpace ns name)
  refine ⟨_, run_pairing_gone st hcalm hgone, ?_⟩
  -- The children are as they were before the pairing was deleted.
  have htold : Teardown.told (s.remove .pairing (.inSpace ns name)) (.inSpace ns name) =
      Teardown.told s (.inSpace ns name) := by
    rw [Teardown.told, find?_remove_of_ne _ (by simp), find?_remove_of_ne _ (by simp),
      Teardown.told]
  rw [htold, hroot.told_eq hp, ht]
  split
  · rename_i hchild
    refine iff_of_true ?_ (Or.inl hchild)
    refine Teardown.removed_cleared st hcalm ?_ hgone
    rwa [find?_remove_of_ne _ (by simp)]
  · rename_i hchild
    exact (or_iff_right hchild).symm

section deletion

/-- The reconcile of `c` pairs the tenant and routes to the pairings. -/
def routed : Store := ((reconcile {} ⟨.microservice, .inSpace "dc1" "c"⟩).run Pool.staffed).2

def equipped : Store :=
  ((reconcile {} ⟨.pairing, .inSpace "dc1" (Naming.pairing "a" "c")⟩).run routed).2

theorem reaches_routed : Reaches {} Pool.staffed routed :=
  .single ⟨⟨.microservice, .inSpace "dc1" "c"⟩, .converged, rfl⟩

theorem reaches_equipped : Reaches {} Pool.staffed equipped :=
  reaches_routed.tail ⟨⟨.pairing, .inSpace "dc1" (Naming.pairing "a" "c")⟩, .converged, rfl⟩

theorem declared_staffed (k : Kind) (key : Key) (h : (Pool.staffed.find? k key).isSome) :
    k.Declared := by
  cases k <;> first | simp [Kind.Declared]; done | cases h

/-- Nothing is left of the pairing that has its children. -/
theorem removed_equipped : ∃ s',
    (reconcile {} ⟨.pairing, .inSpace "dc1" (Naming.pairing "a" "c")⟩).run
        (equipped.remove .pairing (.inSpace "dc1" (Naming.pairing "a" "c"))) = (.ok .tornDown, s') ∧
      Teardown.Removed {} s' "dc1" "a" (Naming.pairing "a" "c") := by
  have hp : equipped.find? .pairing (.inSpace "dc1" (Naming.pairing "a" "c")) =
      some ((Pairing.forPair "dc1" "a" "c" .empty).withVersion (some "7")) := rfl
  obtain ⟨s', hrun, hiff⟩ := removed_iff_of_deleted {} Pool.reached_staffed rfl declared_staffed
    reaches_equipped hp rfl rfl
  exact ⟨s', hrun, hiff.2 (Or.inl (Or.inl rfl))⟩

/-- A pairing that has no children yet is routed to when it is deleted, and its reconcile leaves the
table as it is. -/
theorem not_forall_removed :
    ¬∀ (st : Settings) (s₀ s s' : Store) (ns name tenant : String) (p : Pairing) (o : Outcome),
      s₀.Reached → s₀.faults = [] → (∀ k key, (s₀.find? k key).isSome → k.Declared) →
      Reaches st s₀ s → s.find? .pairing (.inSpace ns name) = some p →
      p.content.tenantId = tenant → (s.find? .tenant (.inSpace ns tenant)).isSome →
      (reconcile st ⟨.pairing, .inSpace ns name⟩).run (s.remove .pairing (.inSpace ns name)) =
        (.ok o, s') →
      Teardown.Removed st s' ns tenant name := by
  intro h
  have hremoved := h {} Pool.staffed routed _ "dc1" (Naming.pairing "a" "c") "a" _ .tornDown
    Pool.reached_staffed rfl declared_staffed reaches_routed rfl rfl rfl rfl
  exact hremoved.unrouted (by decide)

end deletion

end Reconcile
end TenantOperator
