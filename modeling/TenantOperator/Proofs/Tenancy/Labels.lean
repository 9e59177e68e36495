import TenantOperator.Proofs.Areas.Routes

/-! Labels and selectors. What is made for a pairing bears the labels of its tenant and of its
microservice, and selectors ask for these (`labels_agree`). Pairings can share a name, since ids may
contain the character that joins them, but their labels differ: no Service leads to the pods of a
namesake. -/
namespace TenantOperator
open Program Store

/-- The slot holds an object with the labels of `r`, whatever else is different. -/
def Store.Labelled (s : Store) {k : Kind} (key : Key) (r : Resource k) : Prop :=
  ∃ x : Resource k, s.find? k key = some x ∧ x.metadata.labels = r.metadata.labels

namespace Teardown
variable {s : Store} {ns name tenant : String}

/-- A clearing that is not told the tenant finds it and goes on as if told, unless a read that it
takes to find it is struck. -/
inductive Recovers (s : Store) (ns name tenant : String) : Prop where
  | struck {k : Kind} {e : Error} {s' : Store}
    (hk : k = .deployment ∨
      k = .service ∧ (s.find? .deployment (.inSpace ns name)).bind tenantOf = none)
    (hs : s.Struck k .get e s') (h : ∀ st, (pairing st ns name none).run s = (.error e, s')) :
    Recovers s ns name tenant
  | found (ht : (pairingTenant (.inSpace ns name)).run s = (.ok (some tenant), s))
    (h : ∀ st, (pairing st ns name none).run s = (clearPairing st ns name tenant).run s) :
    Recovers s ns name tenant

theorem Recovers.run_pairingTenant (h : Recovers s ns name tenant)
    (hfaults : ∀ k, ¬s.FaultDue k .get) :
    (pairingTenant (.inSpace ns name)).run s = (.ok (some tenant), s) := by
  cases h with
  | struck _ hs => exact absurd hs.faultDue (hfaults _)
  | found ht => exact ht

theorem recovers_of_told (h : told s (.inSpace ns name) = some tenant) :
    Recovers s ns name tenant := by
  rcases run_pairingTenant_cases s (.inSpace ns name) with ⟨k, e, s', hk, hs, hrun⟩ | hrun
  · refine .struck hk hs fun st => ?_
    rw [Teardown.pairing, run_bind, hrun]
  · rw [h] at hrun
    refine .found hrun fun st => ?_
    rw [Teardown.pairing, run_bind_of_ok hrun]

theorem bind_tenantOf_of_labelled {k : Kind} {key : Key} {r : Resource k}
    (h : s.Labelled key r) : (s.find? k key).bind tenantOf = tenantOf r := by
  obtain ⟨x, hx, hl⟩ := h
  rw [hx, Option.bind_some, tenantOf, tenantOf, Metadata.labelMap, hl, Metadata.labelMap]

theorem told_of_labelled {key : Key} {d : Deployment} {sv : Service}
    (hd : tenantOf d = some tenant) (hv : tenantOf sv = some tenant)
    (h : s.Labelled key d ∨ (s.find? .deployment key).bind tenantOf = none ∧ s.Labelled key sv) :
    told s key = some tenant := by
  -- A Deployment of another tenant would come first; without a label it is passed over.
  rcases h with h | ⟨hnone, h⟩
  · rw [told, bind_tenantOf_of_labelled h, hd, Option.some_or]
  · rw [told, hnone, bind_tenantOf_of_labelled h, hv, Option.none_or]

end Teardown

namespace Workload
open Teardown (tenantOf)

theorem tenantOf_deployment (i : Instance) (t : Tenant) (m : Microservice) :
    tenantOf (deployment i t m) = some t.name :=
  Naming.find?_managedLabels_tenant

theorem tenantOf_service (i : Instance) (t : Tenant) (m : Microservice) :
    tenantOf (service i t m) = some t.name :=
  Naming.find?_managedLabels_tenant

/-- Labels that the pods behind a Service must bear. -/
def serviceSelector (sv : Service) : Option Labels := sv.content.spec.bind (·.selector)

/-- Labels that the pods of a Deployment must bear, if it asks for nothing but labels. -/
def deploymentSelector (d : Deployment) : Option Labels :=
  d.content.spec.bind fun spec =>
    if spec.selector.others = [] then spec.selector.matchLabels else none

/-- Whether the pods that a Deployment makes are selected; without a selector no pods are. -/
def selectsPods (selector : Option Labels) (d : Deployment) : Bool :=
  match selector, d.content.spec.bind (·.template.metadata) with
  | some labels, some pods => pods.satisfies labels
  | _, _ => false

theorem selectsPods_pairingLabels {i : Instance} {t : Tenant} {m : Microservice}
    {tenant microservice : String} :
    selectsPods (some (Naming.pairingLabels tenant microservice)) (deployment i t m) = true ↔
      t.name = tenant ∧ m.name = microservice := by
  -- The pods bear the labels that their own Deployment asks for.
  have hpods : selectsPods (some (Naming.pairingLabels tenant microservice)) (deployment i t m) =
      Metadata.satisfies { labels := some (Naming.pairingLabels t.name m.name) }
        (Naming.pairingLabels tenant microservice) := rfl
  rw [hpods, Metadata.satisfies_pairingLabels, Metadata.labelMap, Option.getD_some,
    Naming.find?_pairingLabels_tenant, Naming.find?_pairingLabels_microservice, Option.some_inj,
    Option.some_inj]

/-- Selectors pick what is labelled for them and nothing else: those of a tenant and of a
microservice their pairings, those of a Service and of a Deployment the pods of the same tenant and
microservice. Teardown reads the tenant off either child. A pairing, its children and the route that
leads to it, if it is the first one of its area, have the same name. -/
theorem labels_agree (i j : Instance) (t u : Tenant) (m n : Microservice) :
    (∀ c, ((Pairing.forPair i.name t.name m.name c).metadata.satisfies
        (Naming.tenantSelector u.name) ↔ t.name = u.name) ∧
      ((Pairing.forPair i.name t.name m.name c).metadata.satisfies
        (Naming.microserviceSelector n.name) ↔ m.name = n.name)) ∧
    (tenantOf (deployment i t m) = some t.name ∧ tenantOf (service i t m) = some t.name ∧
      ∀ (s : Store) ns name, s.Labelled (.inSpace ns name) (deployment i t m) ∨
        (s.find? .deployment (.inSpace ns name)).bind tenantOf = none ∧
          s.Labelled (.inSpace ns name) (service i t m) →
        Teardown.Recovers s ns name t.name) ∧
    (selectsPods (serviceSelector (service j u n)) (deployment i t m) ↔
      t.name = u.name ∧ m.name = n.name) ∧
    (selectsPods (deploymentSelector (deployment j u n)) (deployment i t m) ↔
      t.name = u.name ∧ m.name = n.name) ∧
    ∀ p : ResolvedPairing, p.pairing.Shaped → p.pairing.content.tenantId = t.name →
      p.pairing.content.microserviceId = m.name →
      ∃ name, p.pairing.metadata.name = some name ∧
        (deployment i t m).metadata.name = some name ∧ (service i t m).metadata.name = some name ∧
        ∀ ps cls, ps.find? (·.area = p.area) = some p →
          ∃ table, Routing.build i.name t.name ps cls = some table ∧ ∀ backend,
            (some (Naming.routingPath i.name t.name p.area), backend) ∈ Routing.routesOf table ↔
              backend = some name := by
  have htd := tenantOf_deployment i t m
  have htv := tenantOf_service i t m
  refine ⟨fun c => ?_, ⟨htd, htv, fun s ns name h => ?_⟩, selectsPods_pairingLabels,
    selectsPods_pairingLabels, fun p hp ht hm => ?_⟩
  · have hshaped := Pairing.shaped_forPair i.name t.name m.name c none
    exact ⟨hshaped.satisfies_iff, hshaped.satisfies_microserviceSelector_iff⟩
  · exact Teardown.recovers_of_told (Teardown.told_of_labelled htd htv h)
  · have hname : p.pairing.metadata.name = some (Naming.pairing t.name m.name) := by
      rw [hp.name, ht, hm]
    have hbackend : p.name = Naming.pairing t.name m.name := by
      rw [ResolvedPairing.name, Resource.name, Metadata.anyName, hname]
      rfl
    refine ⟨_, hname, rfl, rfl, fun ps cls hfirst => ?_⟩
    rw [← hbackend]
    exact Routing.mem_routesOf_build_iff hfirst i.name t.name cls

section namesakes
open TenantOperator.Matrix (bareInstance bareTenant bareMicroservice)

def namesake : ResolvedPairing := ⟨.forPair "dc1" "a-b" "c" .empty, "c"⟩

/-- The Service of one of the two; there is no Deployment. -/
def halfMade : Store :=
  (({} : Store).perform (.create .service
    (service bareInstance (bareTenant "a-b") (bareMicroservice "c")))).2

/-- The tenant is told by the Service that is there, and the Service of the other pairing does not
lead to its pods. -/
theorem labels_agree_namesakes :
    Naming.pairing "a-b" "c" = Naming.pairing "a" "b-c" ∧
    (halfMade.find? .deployment (.inSpace "dc1" "tms-a-b-c") = none ∧
      halfMade.Labelled (.inSpace "dc1" "tms-a-b-c")
        (service bareInstance (bareTenant "a-b") (bareMicroservice "c")) ∧
      (Teardown.pairingTenant (.inSpace "dc1" "tms-a-b-c")).run halfMade =
        (.ok (some "a-b"), halfMade)) ∧
    selectsPods
      (serviceSelector (service bareInstance (bareTenant "a") (bareMicroservice "b-c")))
      (deployment bareInstance (bareTenant "a-b") (bareMicroservice "c")) = false ∧
    (namesake.pairing.Shaped ∧ namesake.pairing.content.tenantId = "a-b" ∧
      namesake.pairing.content.microserviceId = "c" ∧
      [namesake].find? (·.area = "c") = some namesake ∧
      ∃ table, Routing.build "dc1" "a-b" [namesake] none = some table ∧
        (some "/dc1/a-b/c(/|$)(.*)", some "tms-a-b-c") ∈ Routing.routesOf table) := by
  obtain ⟨-, ⟨-, -, hrecovers⟩, hserves, -, hnames⟩ := labels_agree bareInstance bareInstance
    (bareTenant "a-b") (bareTenant "a") (bareMicroservice "c") (bareMicroservice "b-c")
  have hlabelled : halfMade.Labelled (.inSpace "dc1" "tms-a-b-c")
      (service bareInstance (bareTenant "a-b") (bareMicroservice "c")) := ⟨_, rfl, rfl⟩
  have hfaults : halfMade.faults = [] := rfl
  have htold := (hrecovers halfMade "dc1" "tms-a-b-c" (Or.inr ⟨rfl, hlabelled⟩)).run_pairingTenant
    fun k => by simp [FaultDue, hfaults]
  have hapart := Bool.eq_false_iff.2 (mt hserves.1 (by decide))
  have hshaped : namesake.pairing.Shaped := Pairing.shaped_forPair "dc1" "a-b" "c" .empty none
  obtain ⟨name, hname, -, -, hroute⟩ := hnames namesake hshaped rfl rfl
  obtain ⟨table, htable, hmem⟩ := hroute [namesake] none rfl
  exact ⟨by decide, ⟨rfl, hlabelled, htold⟩, hapart, hshaped, rfl, rfl, rfl, table, htable,
    (hmem _).2 hname⟩

end namesakes

end Workload
end TenantOperator
