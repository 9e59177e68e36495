import TenantOperator.Proofs.Interleaving.Cleaning
import TenantOperator.Proofs.Tenancy.Idempotence

/-! What tenants share, derived anew. The reconcile of a microservice pairs and syncs the tenants of
its namespace one after the other. What a tenant shares is then exactly what its pairings ask for,
and the work for the tenants after it does not change that. -/
namespace TenantOperator
open Program Store

namespace Routing
variable {st : Settings} {s : Store} {ns tenant : String}

/-- The stored table is the one that is built for the pairings: none if there are no pairings, else
one of the same specification, labels and annotations. -/
structure Exact (st : Settings) (s : Store) (ns tenant : String) (ps : List ResolvedPairing) :
    Prop where
  absent : ps = [] → s.find? .ingress (tableKey ns tenant) = none
  built : ps ≠ [] → ∃ wanted stored, build ns tenant ps st.ingressClass = some wanted ∧
    s.find? .ingress (tableKey ns tenant) = some stored ∧
    stored.content.spec = wanted.content.spec ∧
    stored.metadata.labels = wanted.metadata.labels ∧
    stored.metadata.annotations = wanted.metadata.annotations

theorem current_iff_exact :
    Current st s ns tenant ↔ Exact st s ns tenant (s.resolved ns tenant) := by
  rw [current_iff]
  constructor
  · rintro (⟨hnil, hnone⟩ | ⟨hne, stored, hs, hcur⟩)
    · exact ⟨fun _ => hnone, fun hne => absurd hnil hne⟩
    · exact ⟨fun hnil => absurd hnil hne,
        fun _ => ⟨_, stored, build_of_ne_nil hne _, hs, isCurrent_iff.1 hcur⟩⟩
  · intro h
    by_cases hnil : s.resolved ns tenant = []
    · exact .inl ⟨hnil, h.absent hnil⟩
    · obtain ⟨wanted, stored, hb, hs, hequal⟩ := h.built hnil
      cases (build_of_ne_nil hnil st.ingressClass).symm.trans hb
      exact .inr ⟨hnil, stored, hs, isCurrent_iff.2 hequal⟩

end Routing

namespace Bundle
variable {s : Store} {ns tenant area : String} {ps : List ResolvedPairing}

/-- The entry of an area is that of a pairing of the area: the old one if that is one of them, else
the one of the first pairing by name. -/
def Resettled (ps : List ResolvedPairing) (area : String) (old new : Option String) : Prop :=
  ∃ p ∈ ps, p.area = area ∧ new = some p.entry ∧
    (old = some p.entry ∨ ∀ q ∈ ps, q.area = area → old ≠ some q.entry ∧ p.NotAfter q)

theorem exists_first (hps : ps.Pairwise ResolvedPairing.NotAfter) (hmem : area ∈ ps.map (·.area)) :
    ∃ p ∈ ps, p.area = area ∧ (∀ q ∈ ps, q.area = area → p.NotAfter q) ∧
      ∃ rest, entriesOf ps area = p.entry :: rest := by
  cases hf : ps.filter (·.area = area) with
  | nil => exact absurd hmem (entriesOf_eq_nil.1 (by rw [entriesOf, hf]; rfl))
  | cons p rest =>
    have hof {q : ResolvedPairing} : q ∈ p :: rest ↔ q ∈ ps ∧ q.area = area := by
      rw [← hf, List.mem_filter, decide_eq_true_iff]
    have hsorted := hps.filter (·.area = area)
    rw [hf] at hsorted
    obtain ⟨hp, harea⟩ := hof.1 List.mem_cons_self
    refine ⟨p, hp, harea, fun q hq hqarea => ?_, rest.map (·.entry), by rw [entriesOf, hf]; rfl⟩
    rcases List.mem_cons.1 (hof.2 ⟨hq, hqarea⟩) with rfl | hq
    · simp [ResolvedPairing.NotAfter, Std.ReflCmp.compare_self]
    · exact (List.pairwise_cons.1 hsorted).1 q hq

theorem resettled_chosen (hps : ps.Pairwise ResolvedPairing.NotAfter)
    (hmem : area ∈ ps.map (·.area)) (old : Option String) :
    Resettled ps area old (chosen old (entriesOf ps area)) := by
  by_cases hold : ∃ q ∈ ps, q.area = area ∧ old = some q.entry
  · obtain ⟨q, hq, hqarea, rfl⟩ := hold
    exact ⟨q, hq, hqarea, chosen_of_mem (mem_entriesOf.2 ⟨q, hq, hqarea, rfl⟩), .inl rfl⟩
  · obtain ⟨p, hp, harea, hfirst, rest, hcons⟩ := exists_first hps hmem
    have hnot : ∀ q ∈ ps, q.area = area → old ≠ some q.entry := fun q hq hqarea he =>
      hold ⟨q, hq, hqarea, he⟩
    have hchosen : chosen old (entriesOf ps area) = (entriesOf ps area).head? := by
      refine chosen_of_notMem (fun hnil => entriesOf_eq_nil.1 hnil hmem) fun e he => ?_
      obtain ⟨q, hq, hqarea, rfl⟩ := mem_entriesOf.1 he
      exact hnot q hq hqarea
    refine ⟨p, hp, harea, ?_, .inr fun q hq hqarea => ⟨hnot q hq hqarea, hfirst q hq hqarea⟩⟩
    rw [hchosen, hcons, List.head?_cons]

theorem resettled_merge (hps : ps.Pairwise ResolvedPairing.NotAfter)
    (hmem : area ∈ ps.map (·.area)) (d : Labels) :
    Resettled ps area (d.find? area) ((merge (candidates ps) d).find? area) := by
  rw [find?_merge_of_mem hmem]
  exact resettled_chosen hps hmem _

theorem data_synced (st : Settings) (s : Store) (ns tenant : String) :
    ((Teardown.synced st s ns tenant).find? .configMap (tenantKey ns tenant)).map data =
      (s.find? .configMap (tenantKey ns tenant)).map fun cm =>
        merge (candidates (s.resolved ns tenant)) (data cm) := by
  rw [Teardown.synced, Routing.agreeOff_rebuilt st ns tenant _ _ _ (by simp),
    data_upserted_mergeInto]

end Bundle

namespace Reconcile
variable {st : Settings} {s s' : Store} {ns tenant : String}

/-- What a tenant shares is derived anew: the bundle from what it was in `s`, and both from the
pairings of the tenant in `s'`. -/
structure Rederived (st : Settings) (s s' : Store) (ns tenant : String)
    (ps : List ResolvedPairing) : Prop where
  resolved : (resolveForTenant ns tenant).run s' = (.ok ps, s')
  table : Routing.Exact st s' ns tenant ps
  bundle : (s'.find? .configMap (Bundle.tenantKey ns tenant)).isSome ↔
    (s.find? .configMap (Bundle.tenantKey ns tenant)).isSome
  areas : (s'.find? .configMap (Bundle.tenantKey ns tenant)).isSome → ∀ area,
    (Bundle.entries s' ns tenant).contains area ↔ area ∈ ps.map (·.area)
  entries : (s'.find? .configMap (Bundle.tenantKey ns tenant)).isSome →
    ∀ area ∈ ps.map (·.area), Bundle.Resettled ps area
      ((Bundle.entries s ns tenant).find? area) ((Bundle.entries s' ns tenant).find? area)

/-- Pairing and syncing tenants merges the entries of each bundle with those of the pairings that
its tenant has in the end. -/
theorem data_tenants {ts : List Tenant} (hs : s.Calm) (hnames : (ts.map (·.name)).Nodup)
    (hts : ∀ t ∈ ts, t.metadata.ns = some ns ∧ (s.find? .tenant (.inSpace ns t.name)).isSome)
    (h : (tenants st ns ts).run s = (.ok (), s')) :
    ∀ t ∈ ts, (s'.find? .configMap (Bundle.tenantKey ns t.name)).map Bundle.data =
      (s.find? .configMap (Bundle.tenantKey ns t.name)).map fun cm =>
        Bundle.merge (Bundle.candidates (s'.resolved ns t.name)) (Bundle.data cm) := by
  induction ts generalizing s with
  | nil => simp
  | cons t ts ih =>
    obtain ⟨hfresh, hnames'⟩ := List.nodup_cons.1 hnames
    obtain ⟨hns, halive⟩ := hts t List.mem_cons_self
    rw [tenants, run_bind_ok] at h
    obtain ⟨n, s₁, hn, h⟩ := h
    obtain ⟨ns', hns', hst₁, -⟩ := Matrix.run_resolveTenant_ok hn
    cases hns.symm.trans hns'
    have hpairings : AgreeOff (fun k _ => k = .pairing) s s₁ := by
      have hrun := ((Cleaning.within_resolveTenant t).run hs.filed).1
      rwa [hn] at hrun
    rw [← hst₁.find?_eq] at halive
    rw [run_bind_of_ok (Teardown.run_syncTenant_alive st ns t.name (hst₁.calm hs) halive)] at h
    have hst₂ := Matrix.Stage.synced st s₁ ns t.name
    have hst := hst₁.trans hst₂
    have hts' : ∀ u ∈ ts, u.metadata.ns = some ns ∧
        ((Teardown.synced st s₁ ns t.name).find? .tenant (.inSpace ns u.name)).isSome := by
      intro u hu
      rw [hst.find?_eq]
      exact hts u (List.mem_cons_of_mem t hu)
    obtain ⟨hst₃, -⟩ := run_tenants_ok st (hst.calm hs) hnames' hts' h
    intro u hu
    rcases List.mem_cons.1 hu with rfl | hu
    · -- The tenants after it have other names.
      have hr : s'.resolved ns u.name = s₁.resolved ns u.name := by
        rw [hst₃.resolved_eq hfresh, (Teardown.agreeOff_synced st ns u.name s₁).resolved_eq
          (by simp [Bundle.Shared]) (by simp [Bundle.Shared])]
      rw [hst₃.find?_shared hfresh (.inl ⟨rfl, rfl⟩), Bundle.data_synced, hr,
        hpairings _ _ (by simp)]
    · have hne : u.name ≠ t.name := fun he => hfresh (List.mem_map.2 ⟨u, hu, he⟩)
      rw [ih (hst.calm hs) hnames' hts' h u hu, hst.find?_shared hne (.inl ⟨rfl, rfl⟩)]

theorem rederived_of_data (hs' : s'.Calm) (hcur : Routing.Current st s' ns tenant)
    (hdata : (s'.find? .configMap (Bundle.tenantKey ns tenant)).map Bundle.data =
      (s.find? .configMap (Bundle.tenantKey ns tenant)).map fun cm =>
        Bundle.merge (Bundle.candidates (s'.resolved ns tenant)) (Bundle.data cm)) :
    Rederived st s s' ns tenant (s'.resolved ns tenant) := by
  have hmerged (hsome : (s'.find? .configMap (Bundle.tenantKey ns tenant)).isSome) :
      Bundle.entries s' ns tenant = Bundle.merge (Bundle.candidates (s'.resolved ns tenant))
        (Bundle.entries s ns tenant) := by
    cases hc : s.find? .configMap (Bundle.tenantKey ns tenant) with
    | none =>
      rw [hc, Option.map_none, Option.map_eq_none_iff] at hdata
      rw [hdata] at hsome
      cases hsome
    | some cm =>
      rw [Bundle.entries, hdata, Bundle.entries_of_some hc, hc]
      rfl
  refine ⟨hs'.run_resolveForTenant ns tenant, Routing.current_iff_exact.1 hcur, ?_,
    fun hsome area => ?_, fun hsome area hmem => ?_⟩
  · rw [← Option.isSome_map (f := Bundle.data), hdata, Option.isSome_map]
  · rw [hmerged hsome, Bundle.contains_merge]
  · rw [hmerged hsome]
    exact Bundle.resettled_merge (ResolvedPairing.pairwise_sortByName _) hmem _

theorem run_tenants_of_converged (hs : s.Calm) {key : Key}
    (h : (Reconcile.microservice st ns key).run s = (.ok .converged, s')) :
    (tenants st ns (s.select .tenant (some ns) ∅)).run s = (.ok (), s') := by
  cases hm : s.find? .microservice key with
  | none =>
    rw [Reconcile.microservice, run_bind_of_ok (hs.rests_get hm)] at h
    obtain ⟨s₁, hp, -⟩ := Teardown.run_pairings st ns hs (Naming.microserviceSelector key.name)
    cases (run_bind_pure_eq hp h).1
  | some m => exact (run_microservice_tenants st hs hm h).2.2

end Reconcile

/-- When the reconcile of a microservice has converged, what every tenant of its namespace shares is
derived anew from the tenant's pairings. -/
theorem rederived_of_converged (st : Settings) {s s' : Store} {ns microservice : String}
    (hs : s.Reached) (hf : s.faults = [])
    (h : (reconcile st ⟨.microservice, .inSpace ns microservice⟩).run s = (.ok .converged, s')) :
    (∀ key, s'.find? .tenant key = s.find? .tenant key) ∧
      ∀ tenant, (s'.find? .tenant (.inSpace ns tenant)).isSome →
        ∃ ps, Reconcile.Rederived st s s' ns tenant ps := by
  have hc : s.Calm := ⟨hs.filed, hf⟩
  have ht := Reconcile.run_tenants_of_converged hc h
  have hnames := hc.filed.nodup_names .tenant ns ∅
  have hts (t : Tenant) (hmem : t ∈ s.select .tenant (some ns) ∅) :=
    Reconcile.alive_of_mem_select hc.filed hmem
  obtain ⟨hst, hall⟩ := Reconcile.run_tenants_ok st hc hnames hts ht
  refine ⟨fun key => hst.find?_eq, fun tenant halive => ?_⟩
  rw [hst.find?_eq] at halive
  obtain ⟨t, htenant⟩ := Option.isSome_iff_exists.1 halive
  have hmem : t ∈ s.select .tenant (some ns) ∅ := mem_select_of_find? htenant rfl rfl
  obtain rfl : t.name = tenant := congrArg Key.name (hc.filed htenant)
  exact ⟨_, Reconcile.rederived_of_data (hst.calm hc) (hall t hmem).2.2
    (Reconcile.data_tenants hc hnames hts ht t hmem)⟩

section moved

/-- The tenant `a` with an entry and a path for the microservice `c`. -/
def unmoved : Store :=
  ((reconcile {} ⟨.pairing, .inSpace "dc1" (Naming.pairing "a" "c")⟩).run
    ((reconcile {} ⟨.tenant, .inSpace "dc1" "a"⟩).run
      ([.create .inst Matrix.bareInstance, .create .microserviceTemplate Matrix.bareTemplate,
        .create .microservice (Matrix.bareMicroservice "c"),
        .create .tenant (Matrix.bareTenant "a")].foldl
          (fun s (c : Call) => (s.perform c).2) {})).2).2

def moved : Store :=
  (unmoved.perform (.update .microservice { Matrix.bareMicroservice "c" with
    content := { (Matrix.bareMicroservice "c").content with functionalArea := "z" } })).2

theorem reached_moved : moved.Reached :=
  .call _ ((((((Reached.fresh.call _).call _).call _).call _).run _).run _)

def followed : Store := ((reconcile {} ⟨.microservice, .inSpace "dc1" "c"⟩).run moved).2

/-- Path and entry follow, and the old ones are gone. -/
theorem rederived_moved : moved.Reached ∧ moved.faults = [] ∧
    (reconcile {} ⟨.microservice, .inSpace "dc1" "c"⟩).run moved = (.ok .converged, followed) ∧
    (Bundle.entries moved "dc1" "a").keys = ["c"] ∧
    (Bundle.entries followed "dc1" "a").keys = ["z"] ∧
    ∃ ps, Reconcile.Rederived {} moved followed "dc1" "a" ps := by
  have hrun : (reconcile {} ⟨.microservice, .inSpace "dc1" "c"⟩).run moved =
      (.ok .converged, followed) := rfl
  exact ⟨reached_moved, rfl, hrun, rfl, rfl,
    (rederived_of_converged {} reached_moved rfl hrun).2 "a" rfl⟩

end moved

end TenantOperator
