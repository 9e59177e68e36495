import Mathlib.Data.List.Perm.Basic
import Mathlib.Data.List.Sort
import Mathlib.Data.String.Basic
import TenantOperator.Proofs.Naming
import TenantOperator.Proofs.Tenancy.Entries
import TenantOperator.Proofs.Tenancy.Matrix

/-! The pairings of a tenant and the calls that find them. The list that comes out is told by what
the store holds, without cache, filter and sort: there is one list of that kind only. Each
microservice that a pairing names is asked for once, whether it is there or not. -/
namespace TenantOperator
open Program Store

namespace Program
variable {α β : Type} {s s₁ : Store} {p : Program α} {f : α → Program β}

/-- The calls of a run, the first one first. -/
def trace : Program α → Store → List Call
  | .done _, _ => []
  | .call c next, s => c :: (next (s.perform c).1).trace (s.perform c).2

theorem trace_bind_of_ok {a : α} (h : p.run s = (.ok a, s₁)) :
    (p >>= f).trace s = p.trace s ++ (f a).trace s₁ := by
  induction p generalizing s with
  | done r =>
    cases h
    rfl
  | call c next ih => exact congrArg (c :: ·) (ih _ h)

theorem trace_bind_done (hf : ∀ a, ∃ r, f a = .done r) : (p >>= f).trace s = p.trace s := by
  induction p generalizing s with
  | done r =>
    cases r with
    | ok a =>
      obtain ⟨r, hr⟩ := hf a
      show (f a).trace s = []
      rw [hr]
      rfl
    | error e => rfl
  | call c next ih => exact congrArg (c :: ·) (ih _)

end Program

namespace ResolvedPairing
variable {s : Store} {ns tenant : String} {l l' : List ResolvedPairing}

def inquiry (ns id : String) : Call := .get .microservice (.inSpace ns id)

/-- Past the answers that are known, each microservice is asked for once. -/
theorem trace_lookUp (hs : s.Calm) (ns : String) (ps : List Pairing)
    {areas : SortedMap String (Option String)} (ha : Remembers s ns areas) :
    ∃ ids : List String, (lookUp ns areas ps).trace s = ids.map (inquiry ns) ∧ ids.Nodup ∧
      ∀ id, id ∈ ids ↔ id ∈ ps.map (·.content.microserviceId) ∧ areas.find? id = none := by
  induction ps generalizing areas with
  | nil => exact ⟨[], rfl, .nil, by simp⟩
  | cons p ps ih =>
    obtain ⟨areas', hr, ha', hid⟩ := run_remember hs ha p.content.microserviceId
    obtain ⟨ids, htrace, hnodup, hmem⟩ := ih ha'
    have hcons : (lookUp ns areas (p :: ps)).trace s =
        (remember ns areas p.content.microserviceId).trace s ++ ids.map (inquiry ns) := by
      rw [lookUp_cons, trace_bind_of_ok hr, ← htrace]
      refine congrArg _ (trace_bind_done fun rest => ?_)
      split <;> exact ⟨_, rfl⟩
    rw [remember] at hr hcons
    cases hc : areas.find? p.content.microserviceId with
    | some area =>
      rw [hc] at hr hcons
      cases hr
      refine ⟨ids, hcons, hnodup, fun id => ?_⟩
      rw [hmem, List.map_cons, List.mem_cons]
      constructor
      · exact fun h => ⟨.inr h.1, h.2⟩
      · rintro ⟨rfl | h, hnone⟩
        · rw [hc] at hnone
          cases hnone
        · exact ⟨h, hnone⟩
    | none =>
      rw [hc] at hr hcons
      cases (run_bind_of_ok (hs.run_get _)).symm.trans hr
      refine ⟨p.content.microserviceId :: ids, ?_, ?_, fun id => ?_⟩
      · rw [hcons, trace_bind_of_ok (hs.run_get _)]
        rfl
      · refine List.nodup_cons.2 ⟨fun h => ?_, hnodup⟩
        rw [((hmem _).1 h).2] at hid
        cases hid
      · rw [List.mem_cons, hmem, List.map_cons, List.mem_cons]
        by_cases h : id = p.content.microserviceId
        · simp [h, hc]
        · simp [h, SortedMap.find?_insert_of_ne _ h]

/-- The store has the pairing in a namespace, with the label of the tenant. -/
def Labelled (s : Store) (ns tenant : String) (p : Pairing) : Prop :=
  ∃ key, s.find? .pairing key = some p ∧ key.ns = some ns ∧
    p.metadata.labelMap.find? Naming.tenantLabel = some tenant

/-- All pairings of a namespace with the label of the tenant that name a microservice of the
namespace, with its area and in the order of their names. -/
structure Listing (s : Store) (ns tenant : String) (l : List ResolvedPairing) : Prop where
  increasing : l.Pairwise fun p q => p.name < q.name
  mem_iff : ∀ q, q ∈ l ↔ Labelled s ns tenant q.pairing ∧
    ∃ m, s.find? .microservice (.inSpace ns q.pairing.content.microserviceId) = some m ∧
      m.content.functionalArea = q.area

theorem mem_select_iff_labelled {p : Pairing} :
    p ∈ s.select .pairing (some ns) (Naming.tenantSelector tenant) ↔ Labelled s ns tenant p := by
  simp [mem_select, picks, Labelled, Metadata.satisfies_tenantSelector]

theorem Listing.nodup (h : Listing s ns tenant l) : l.Nodup := by
  refine h.increasing.imp fun {p q} hlt he => ?_
  subst he
  exact lt_irrefl _ hlt

theorem Listing.unique (h : Listing s ns tenant l) (h' : Listing s ns tenant l') : l' = l := by
  have hperm : l'.Perm l := (List.perm_ext_iff_of_nodup h'.nodup h.nodup).2 fun q => by
    rw [h'.mem_iff, h.mem_iff]
  refine hperm.eq_of_pairwise (fun p q _ _ hpq hqp => ?_) h'.increasing h.increasing
  exact absurd hpq (lt_asymm hqp)

theorem increasing_sortByName (h : l.Pairwise fun p q => p.name ≠ q.name) :
    (sortByName l).Pairwise fun p q => p.name < q.name := by
  have hne : (sortByName l).Pairwise fun p q => p.name ≠ q.name := by
    rw [sortByName_eq]
    exact ((List.perm_insertionSort NotAfter l).pairwise_iff Ne.symm).2 h
  refine ((pairwise_sortByName l).and hne).imp fun {p q} hpq => ?_
  exact lt_of_le_of_ne (compare_le_iff_le.1 (Ordering.isLE_iff_ne_gt.1 hpq.1)) hpq.2

theorem listing_resolved (hs : s.Filed) (ns tenant : String) :
    Listing s ns tenant (s.resolved ns tenant) where
  increasing := by
    refine increasing_sortByName (List.pairwise_filterMap.2 ?_)
    have hnames := List.pairwise_map.1 (hs.nodup_names .pairing ns (Naming.tenantSelector tenant))
    refine hnames.imp fun {p p'} hne q hq q' hq' => ?_
    rwa [ResolvedPairing.name, ResolvedPairing.name, pairing_of_resolve? hq,
      pairing_of_resolve? hq']
  mem_iff q := by
    simp only [resolved, mem_sortByName, List.mem_filterMap, mem_select_iff_labelled, resolve?,
      Option.map_eq_some_iff]
    constructor
    · rintro ⟨p, hp, m, hm, rfl⟩
      exact ⟨hp, m, hm, rfl⟩
    · rintro ⟨hp, m, hm, ha⟩
      exact ⟨q.pairing, hp, m, hm, by rw [ha]⟩

/-- Resolving lists the pairings of the tenant once and asks once for each microservice that one of
them names. What it gives is the list of those whose microservice is there. -/
theorem run_resolveForTenant_listing (hs : s.Reached) (hf : s.faults = []) (ns tenant : String) :
    ∃ l, ∃ ids : List String, (resolveForTenant ns tenant).run s = (.ok l, s) ∧
      Listing s ns tenant l ∧ (∀ l', Listing s ns tenant l' → l' = l) ∧
      (resolveForTenant ns tenant).trace s =
        .list .pairing (some ns) (Naming.tenantSelector tenant) :: ids.map (inquiry ns) ∧
      ids.Nodup ∧
      ∀ id, id ∈ ids ↔ ∃ p, Labelled s ns tenant p ∧ p.content.microserviceId = id := by
  have hc : s.Calm := ⟨hs.filed, hf⟩
  have hlisting := listing_resolved hs.filed ns tenant
  have hnone : Remembers s ns ∅ := fun _ _ h => by simp at h
  obtain ⟨ids, htrace, hnodup, hmem⟩ :=
    trace_lookUp hc ns (s.select .pairing (some ns) (Naming.tenantSelector tenant)) hnone
  refine ⟨_, ids, hc.run_resolveForTenant ns tenant, hlisting, fun l' => hlisting.unique, ?_,
    hnodup, fun id => ?_⟩
  · rw [resolveForTenant, trace_bind_of_ok (hc.run_list ..)]
    exact congrArg (.list .pairing (some ns) (Naming.tenantSelector tenant) :: ·)
      ((trace_bind_done fun _ => ⟨_, rfl⟩).trans htrace)
  · simp [hmem, mem_select_iff_labelled]

section mixed

def renamed (name tenant microservice : String) : Pairing :=
  let p := Pairing.forPair "dc1" tenant microservice .empty
  { p with metadata := { p.metadata with name := some name } }

def mixed : Store :=
  [.create .microservice (Matrix.bareMicroservice "c"), .create .pairing (renamed "2" "a" "c"),
    .create .pairing (renamed "3" "a" "gone"), .create .pairing (renamed "1" "a" "c"),
    .create .pairing (renamed "4" "a" "gone"), .create .pairing (renamed "0" "b" "c")].foldl
      (fun s (c : Call) => (s.perform c).2) {}

theorem reached_mixed : mixed.Reached :=
  .call _ (.call _ (.call _ (.call _ (.call _ (.call _ .fresh)))))

theorem run_resolveForTenant_mixed : mixed.Reached ∧ mixed.faults = [] ∧
    ∃ l, (resolveForTenant "dc1" "a").run mixed = (.ok l, mixed) ∧
      l.map (fun q => (q.name, q.area)) = [("1", "c"), ("2", "c")] ∧
      Listing mixed "dc1" "a" l ∧
      (resolveForTenant "dc1" "a").trace mixed =
        [.list .pairing (some "dc1") (Naming.tenantSelector "a"), inquiry "dc1" "c",
          inquiry "dc1" "gone"] := by
  obtain ⟨l, ids, hrun, hlisting, -, -, -, -⟩ :=
    run_resolveForTenant_listing reached_mixed rfl "dc1" "a"
  have hnames : ((resolveForTenant "dc1" "a").run mixed).1.map
      (·.map fun q => (q.name, q.area)) = .ok [("1", "c"), ("2", "c")] := rfl
  rw [hrun] at hnames
  exact ⟨reached_mixed, rfl, l, hrun, Except.ok.inj hnames, hlisting, rfl⟩

end mixed

end ResolvedPairing
end TenantOperator
