import TenantOperator.Proofs.Interleaving.Synthesizers
import TenantOperator.Proofs.Tours.Again

/-! The pairings of a tenant, reconciled in different orders. Each pairing finds in its own slots
what it would find if it were the only one, and whether its reconcile converges does not depend on
those before it; only the entries of the bundle tell which pairing of an area came last. -/
namespace TenantOperator
open Program Store

namespace Workload
variable {s x s' : Store} {ns : String} {p : Pairing}

/-- The store after the synthesis of a pairing: an existing Deployment is left alone, and without
one both children are made if their parents are there. -/
def synthesized (ns : String) (s : Store) (p : Pairing) : Store :=
  match s.find? .deployment (.inSpace ns p.name), s.find? .tenant (.inSpace ns p.content.tenantId),
    s.find? .microservice (.inSpace ns p.content.microserviceId),
    s.find? .inst (.clusterWide ns) with
  | none, some t, some m, some i => (s.ensured (service i t m)).ensured (deployment i t m)
  | _, _, _, _ => s

theorem run_synthesize (hs : s.Calm) (hns : p.metadata.ns = some ns)
    (ht : (s.find? .tenant (.inSpace ns p.content.tenantId)).isSome)
    (hm : (s.find? .microservice (.inSpace ns p.content.microserviceId)).isSome)
    (h : (s.find? .deployment (.inSpace ns p.name)).isSome ∨
      (s.find? .inst (.clusterWide ns)).isSome) :
    ∃ y, (synthesize p).run s = (.ok y, synthesized ns s p) := by
  obtain ⟨t, ht⟩ := Option.isSome_iff_exists.1 ht
  obtain ⟨m, hm⟩ := Option.isSome_iff_exists.1 hm
  cases hd : s.find? .deployment (.inSpace ns p.name) with
  | some d =>
    refine ⟨.existing, ?_⟩
    simp only [synthesize, hns, synthesized, hd]
    exact run_bind_of_ok (hs.rests_get hd)
  | none =>
    rw [hd] at h
    obtain ⟨i, hi⟩ := Option.isSome_iff_exists.1 (h.resolve_left (by simp))
    refine ⟨.created, ?_⟩
    simp only [synthesized, hd, ht, hm, hi]
    exact run_synthesize_childless hs ⟨ns, hns, hd, ht, hm, hi⟩

theorem made_of_run_synthesize {y : Synthesis} (hns : p.metadata.ns = some ns)
    (h : (synthesize p).run s = (.ok y, s')) :
    (s.find? .deployment (.inSpace ns p.name)).isSome ∨
      (s.find? .inst (.clusterWide ns)).isSome := by
  simp only [synthesize, hns] at h
  rw [run_bind_ok] at h
  obtain ⟨d, s₁, hd, h⟩ := h
  obtain ⟨hfd, rfl⟩ := run_get_ok hd
  cases d with
  | some d => exact .inl (by rw [hfd]; rfl)
  | none =>
    dsimp only at h
    rw [run_bind_ok] at h
    obtain ⟨t, s₂, ht, h⟩ := h
    obtain ⟨-, rfl⟩ := run_parent_ok ht
    rw [run_bind_ok] at h
    obtain ⟨m, s₃, hm, h⟩ := h
    obtain ⟨-, rfl⟩ := run_parent_ok hm
    rw [run_bind_ok] at h
    obtain ⟨i, s₄, hi, -⟩ := h
    exact .inr (by rw [(run_parent_ok hi).1]; rfl)

theorem agreeOff_synthesized (hs : s.Filed) (hp : p.Shaped) (hns : p.metadata.ns = some ns) :
    AgreeOff (Teardown.Children ns p.name) s (synthesized ns s p) := by
  unfold synthesized
  split
  · rename_i t m i hd ht hm hi
    have hkey : p.key = .inSpace ns p.name := congrArg (Key.mk p.name) hns
    obtain ⟨hservice, hdeployment⟩ := Parents.key_eq hs hp hns ⟨hi, ht, hm⟩
    rw [hkey] at hservice hdeployment
    exact ((s.agreeOff_ensured _).mono fun k key hk => ⟨.inr hk.1, hk.2.trans hservice⟩).trans
      ((agreeOff_ensured _ _).mono fun k key hk => ⟨.inl hk.1, hk.2.trans hdeployment⟩)
  · exact .refl _ s

theorem sameAt_synthesized {k : Kind} {key : Key} (h : SameAt s x k key)
    (hd : x.find? .deployment (.inSpace ns p.name) = s.find? .deployment (.inSpace ns p.name))
    (hparents : ∀ k key, k = .tenant ∨ k = .microservice ∨ k = .inst →
      x.find? k key = s.find? k key) :
    SameAt (synthesized ns s p) (synthesized ns x p) k key := by
  rw [synthesized, synthesized, hd, hparents .tenant _ (by simp),
    hparents .microservice _ (by simp), hparents .inst _ (by simp)]
  split
  · exact (h.ensured _).ensured _
  · exact h

end Workload

theorem Routing.sameAt_rebuilt (st : Settings) {s x : Store} {ns tenant : String}
    (h : SameAt s x .ingress (tableKey ns tenant))
    (hr : x.resolved ns tenant = s.resolved ns tenant) :
    SameAt (rebuilt st s ns tenant) (rebuilt st x ns tenant) .ingress (tableKey ns tenant) := by
  rw [rebuilt, rebuilt, hr]
  split
  · exact .of_eq ((find?_remove_self ..).trans (find?_remove_self ..).symm)
  · exact h.upserted (versionless_replace _)

namespace Reconcile
variable {st : Settings} {s x s' : Store} {ns tenant : String} {p q : Pairing} {ps : List Pairing}

/-- The store after the reconcile of a live pairing that converged. -/
def served (st : Settings) (ns : String) (s : Store) (p : Pairing) : Store :=
  match s.resolve? ns p with
  | some q => Routing.rebuilt st (enter ns (Workload.synthesized ns s p) q) ns p.content.tenantId
  | none => s

/-- All that the reconcile of a live pairing needs to converge. -/
structure Servable (s : Store) (ns : String) (p : Pairing) : Prop where
  valid : p.content.validate = .ok ()
  tenant : (s.find? .tenant (.inSpace ns p.content.tenantId)).isSome
  microservice : (s.find? .microservice (.inSpace ns p.content.microserviceId)).isSome
  workload : (s.find? .deployment (.inSpace ns p.name)).isSome ∨
    (s.find? .inst (.clusterWide ns)).isSome

theorem servable_of_run_live (hs : s.Calm) (hns : p.metadata.ns = some ns) {o : Outcome}
    (h : (live st ns p).run s = (.ok o, s')) : Servable s ns p := by
  obtain ⟨-, hv, halive, y, s₁, q, hy, hq, -⟩ := run_live_ok hs h
  refine ⟨hv, halive, ?_, Workload.made_of_run_synthesize hns hy⟩
  rw [resolve?, Option.map_eq_some_iff] at hq
  obtain ⟨m, hm, -⟩ := hq
  rw [hm]
  rfl

theorem run_live_of_servable (hs : s.Calm) (hns : p.metadata.ns = some ns)
    (h : Servable s ns p) : (live st ns p).run s = (.ok .converged, served st ns s p) := by
  obtain ⟨y, hy⟩ := Workload.run_synthesize hs hns h.tenant h.microservice h.workload
  have hon : Onward st ns s (Workload.synthesized ns s p) := .synthesize hs hy
  obtain ⟨t, ht⟩ := Option.isSome_iff_exists.1 h.tenant
  obtain ⟨m, hm⟩ := Option.isSome_iff_exists.1 h.microservice
  have hm₁ : (Workload.synthesized ns s p).find? .microservice
      (.inSpace ns p.content.microserviceId) = some m := by rw [hon.find?_eq, hm]
  have halive : ((Workload.synthesized ns s p).find? .tenant
      (.inSpace ns p.content.tenantId)).isSome := by rw [hon.find?_eq, ht]; rfl
  rw [live_eq, run_bind_of_ok (rests_ofExcept h.valid s),
    run_bind_of_ok (Workload.rests_parent hs ht), run_bind_of_ok hy, announce,
    run_bind_of_ok (Workload.rests_parent (hon.calm hs) hm₁),
    run_bind_of_ok (run_publish_alive st (hon.calm hs) halive)]
  simp only [served, resolve?, hm]
  rfl

theorem onward_served (hs : s.Calm) (hns : p.metadata.ns = some ns) (h : Servable s ns p) :
    Onward st ns s (served st ns s p) :=
  (run_live_standing hs (run_live_of_servable hs hns h)).2.1

theorem agreeOff_served (hs : s.Filed) (hp : p.Shaped) (hns : p.metadata.ns = some ns) :
    AgreeOff (fun k key => Teardown.Children ns p.name k key ∨
      Bundle.Shared ns p.content.tenantId k key) s (served st ns s p) := by
  unfold served
  split
  · rename_i q hq
    have hq' : q.pairing.content.tenantId = p.content.tenantId := by rw [pairing_of_resolve? hq]
    refine ((Workload.agreeOff_synthesized hs hp hns).mono fun _ _ => .inl).trans
      (((agreeOff_enter ns _ q).mono ?_).trans ((Routing.agreeOff_rebuilt st ns _ _).mono ?_))
    · exact fun k key hk => .inr (.inl ⟨hk.1, hq' ▸ hk.2⟩)
    · exact fun k key hk => .inr (.inr hk)
  · exact .refl _ s

theorem Servable.congr (h : Servable s ns q) {tenant name : String} (hne : q.name ≠ name)
    (ha : AgreeOff (fun k key => Teardown.Children ns name k key ∨ Bundle.Shared ns tenant k key)
      s x) : Servable x ns q where
  valid := h.valid
  tenant := by
    rw [ha _ _ (by simp [Teardown.Children, Bundle.Shared])]
    exact h.tenant
  microservice := by
    rw [ha _ _ (by simp [Teardown.Children, Bundle.Shared])]
    exact h.microservice
  workload := by
    rw [ha _ _ (by simp [Teardown.Children, Bundle.Shared, Key.inSpace_inj, hne]),
      ha _ _ (by simp [Teardown.Children, Bundle.Shared])]
    exact h.workload

theorem find?_served_child (h : Servable s ns p) {k : Kind} {key : Key}
    (hk : Teardown.Children ns p.name k key) :
    (served st ns s p).find? k key = (Workload.synthesized ns s p).find? k key := by
  obtain ⟨m, hm⟩ := Option.isSome_iff_exists.1 h.microservice
  simp only [served, resolve?, hm, Option.map_some]
  rw [Routing.agreeOff_rebuilt st ns _ _ _ _ (by rcases hk with ⟨rfl | rfl, -⟩ <;> simp),
    agreeOff_enter ns _ _ _ _ (by rcases hk with ⟨rfl | rfl, -⟩ <;> simp)]

theorem Onward.resolved_eq (h : Onward st ns s s') (tenant : String) :
    s'.resolved ns tenant = s.resolved ns tenant :=
  resolved_congr (fun _ => h.find?_eq) fun key p _ => by rw [h.find?_eq]

theorem sameAt_served_table (st : Settings) (hs : s.Calm) (hns : p.metadata.ns = some ns)
    (h : Servable s ns p) :
    SameAt (Routing.rebuilt st s ns p.content.tenantId) (served st ns s p) .ingress
      (Routing.tableKey ns p.content.tenantId) := by
  obtain ⟨y, hy⟩ := Workload.run_synthesize hs hns h.tenant h.microservice h.workload
  obtain ⟨m, hm⟩ := Option.isSome_iff_exists.1 h.microservice
  simp only [served, resolve?, hm, Option.map_some]
  refine Routing.sameAt_rebuilt st (.of_eq ?_) ?_
  · rw [agreeOff_enter ns _ _ _ _ (by simp), (Workload.run_synthesize_ok hy).2.1 _ _ (by simp)]
  · have hon : Onward st ns s (Workload.synthesized ns s p) := .synthesize hs hy
    exact (hon.trans (.enter st ns _ _)).resolved_eq _

theorem sameAt_served_of_current (st : Settings) (hs : s.Calm) (hns : p.metadata.ns = some ns)
    (h : Servable s ns p) (hcur : Routing.Current st s ns p.content.tenantId) :
    SameAt s (served st ns s p) .ingress (Routing.tableKey ns p.content.tenantId) := by
  have htable := sameAt_served_table st hs hns h
  rwa [Routing.rebuilt_of_current st ns _ hcur] at htable

theorem current_served (hs : s.Calm) (hns : p.metadata.ns = some ns) (h : Servable s ns p) :
    Routing.Current st (served st ns s p) ns p.content.tenantId :=
  (run_live_standing hs (run_live_of_servable hs hns h)).2.2.1.table

/-- Shaped pairings of one tenant, each stored under a name of its own. -/
structure Assigned (s : Store) (ns tenant : String) (ps : List Pairing) : Prop where
  listed : Listed s ns ps
  shaped : ∀ p ∈ ps, p.Shaped
  tenant : ∀ p ∈ ps, p.content.tenantId = tenant
  names : (ps.map (·.name)).Nodup

namespace Assigned

theorem of_perm (hs : s.Filed)
    (hshape : ∀ p ∈ s.select .pairing (some ns) (Naming.tenantSelector tenant), Pairing.Shaped p)
    (h : ps.Perm (s.select .pairing (some ns) (Naming.tenantSelector tenant))) :
    Assigned s ns tenant ps where
  listed p hp := hs.listed_select ns tenant p (h.mem_iff.1 hp)
  shaped p hp := hshape p (h.mem_iff.1 hp)
  tenant p hp := (hshape p (h.mem_iff.1 hp)).satisfies_iff.1 (hs.of_mem_select (h.mem_iff.1 hp)).2.2
  names := (h.map _).nodup_iff.2 (hs.nodup_names ..)

theorem rest (h : Assigned s ns tenant (p :: ps)) (hon : Onward st ns s x) :
    Assigned x ns tenant ps where
  listed := Listed.onward (fun q hq => h.listed q (List.mem_cons_of_mem p hq)) hon
  shaped q hq := h.shaped q (List.mem_cons_of_mem p hq)
  tenant q hq := h.tenant q (List.mem_cons_of_mem p hq)
  names := (List.nodup_cons.1 h.names).2

theorem name_ne (h : Assigned s ns tenant (p :: ps)) (hq : q ∈ ps) : q.name ≠ p.name := by
  rintro he
  exact (List.nodup_cons.1 h.names).1 (List.mem_map.2 ⟨q, hq, he⟩)

theorem agreeOff (st : Settings) (h : Assigned s ns tenant (p :: ps)) (hs : s.Filed) :
    AgreeOff (fun k key => Teardown.Children ns p.name k key ∨ Bundle.Shared ns tenant k key) s
      (served st ns s p) := by
  rw [← h.tenant p List.mem_cons_self]
  exact agreeOff_served hs (h.shaped p List.mem_cons_self) (h.listed p List.mem_cons_self).1

theorem step (st : Settings) (hs : s.Calm) (h : Assigned s ns tenant (p :: ps))
    (hall : ∀ q ∈ p :: ps, Servable s ns q) :
    (served st ns s p).Calm ∧ Assigned (served st ns s p) ns tenant ps ∧
      ∀ q ∈ ps, Servable (served st ns s p) ns q := by
  have hon : Onward st ns s (served st ns s p) :=
    onward_served hs (h.listed p List.mem_cons_self).1 (hall p List.mem_cons_self)
  refine ⟨hon.calm hs, h.rest hon, fun q hq => ?_⟩
  exact (hall q (List.mem_cons_of_mem p hq)).congr (h.name_ne hq) (h.agreeOff st hs.filed)

end Assigned

theorem run_reconcileAll_served (st : Settings) (hs : s.Calm) (h : Assigned s ns tenant ps)
    (hall : ∀ p ∈ ps, Servable s ns p) :
    (reconcileAll st (ps.map request)).run s =
      (.ok (ps.map fun _ => .converged), ps.foldl (served st ns) s) := by
  induction ps generalizing s with
  | nil => rfl
  | cons p ps ih =>
    obtain ⟨hns, hfind⟩ := h.listed p List.mem_cons_self
    obtain ⟨hs₁, h₁, hall₁⟩ := h.step st hs hall
    have hrun : (pairing st ns p.key).run s = (.ok .converged, served st ns s p) := by
      rw [pairing_eq, run_bind_of_ok (hs.rests_get hfind)]
      exact run_live_of_servable hs hns (hall p List.mem_cons_self)
    rw [List.map_cons, reconcileAll, reconcile_request hns, run_bind_of_ok hrun,
      run_bind_of_ok (ih hs₁ h₁ hall₁)]
    rfl

/-- Where a pass over the pairings converges, each of them could have been the first. -/
theorem servable_of_run_reconcileAll (hs : s.Calm) (h : Assigned s ns tenant ps)
    {os : List Outcome} (hrun : (reconcileAll st (ps.map request)).run s = (.ok os, s')) :
    ∀ p ∈ ps, Servable s ns p := by
  induction ps generalizing s s' os with
  | nil => simp
  | cons p ps ih =>
    obtain ⟨hns, hfind⟩ := h.listed p List.mem_cons_self
    rw [List.map_cons, reconcileAll, reconcile_request hns, run_bind_ok] at hrun
    obtain ⟨o, s₁, ho, hrun⟩ := hrun
    rw [run_bind_ok] at hrun
    obtain ⟨os', s₂, hos, -⟩ := hrun
    rw [pairing_eq, run_bind_of_ok (hs.rests_get hfind)] at ho
    have hp := servable_of_run_live hs hns ho
    cases (run_live_of_servable hs hns hp).symm.trans ho
    have hon : Onward st ns s (served st ns s p) := onward_served hs hns hp
    intro q hq
    rcases List.mem_cons.1 hq with rfl | hq
    · exact hp
    · exact (ih (hon.calm hs) (h.rest hon) hos q hq).congr (h.name_ne hq) fun k key hk =>
        (h.agreeOff st hs.filed k key hk).symm

theorem agreeOff_foldl_served (hs : s.Calm) (h : Assigned s ns tenant ps)
    (hall : ∀ p ∈ ps, Servable s ns p) :
    AgreeOff (fun k key => ∃ p ∈ ps, Teardown.Children ns p.name k key ∨
      Bundle.Shared ns tenant k key) s (ps.foldl (served st ns) s) := by
  induction ps generalizing s with
  | nil => exact .refl _ s
  | cons p ps ih =>
    obtain ⟨hs₁, h₁, hall₁⟩ := h.step st hs hall
    refine ((h.agreeOff st hs.filed).mono fun k key hk => ?_).trans
      ((ih hs₁ h₁ hall₁).mono fun k key ⟨q, hq, hk⟩ => ?_)
    · exact ⟨p, List.mem_cons_self, hk⟩
    · exact ⟨q, List.mem_cons_of_mem p hq, hk⟩

theorem sameAt_foldl_of_current (hs : s.Calm) (h : Assigned s ns tenant ps)
    (hall : ∀ p ∈ ps, Servable s ns p) (hcur : Routing.Current st s ns tenant) :
    SameAt s (ps.foldl (served st ns) s) .ingress (Routing.tableKey ns tenant) := by
  induction ps generalizing s with
  | nil => exact .of_eq rfl
  | cons p ps ih =>
    obtain ⟨hs₁, h₁, hall₁⟩ := h.step st hs hall
    obtain rfl := h.tenant p List.mem_cons_self
    have hns := (h.listed p List.mem_cons_self).1
    have hp := hall p List.mem_cons_self
    exact (sameAt_served_of_current st hs hns hp hcur).trans
      (ih hs₁ h₁ hall₁ (current_served hs hns hp))

theorem sameAt_children_after (hs : s.Filed) (h : Assigned s ns tenant (q :: ps)) (hp : p ∈ ps)
    (hservable : Servable s ns p) {k : Kind} {key : Key} (hk : Teardown.Children ns p.name k key) :
    SameAt (served st ns s p) (served st ns (served st ns s q) p) k key := by
  have hne := h.name_ne hp
  have ha := h.agreeOff st hs
  have hclear : ∀ k, k = .deployment ∨ k = .service →
      (served st ns s q).find? k (.inSpace ns p.name) = s.find? k (.inSpace ns p.name) := by
    intro k hk
    refine ha _ _ ?_
    rcases hk with rfl | rfl <;> simp [Teardown.Children, Bundle.Shared, Key.inSpace_inj, hne]
  rw [SameAt, find?_served_child (hservable.congr hne ha) hk, find?_served_child hservable hk]
  refine Workload.sameAt_synthesized ?_ (hclear _ (.inl rfl)) fun k key hk => ?_
  · obtain ⟨hk, rfl⟩ := hk
    exact .of_eq (hclear k hk)
  · refine ha _ _ ?_
    rcases hk with rfl | rfl | rfl <;> simp [Teardown.Children, Bundle.Shared]

/-- The table is the same, too: each of the two leaves the one that a rebuild leaves, so the second
finds it in place. -/
theorem sameAt_table_after (st : Settings) (hs : s.Calm) (h : Assigned s ns tenant (q :: ps))
    (hall : ∀ p ∈ q :: ps, Servable s ns p) (hp : p ∈ ps) :
    SameAt (served st ns s p) (served st ns (served st ns s q) p) .ingress
      (Routing.tableKey ns tenant) := by
  obtain ⟨hs₁, -, hall₁⟩ := h.step st hs hall
  have hmem := List.mem_cons_of_mem q hp
  have hpns := (h.listed p hmem).1
  have hqns := (h.listed q List.mem_cons_self).1
  have hq := hall q List.mem_cons_self
  have hpt := h.tenant p hmem
  have hqt := h.tenant q List.mem_cons_self
  have hfirst := sameAt_served_table st hs hpns (hall p hmem)
  have hother := sameAt_served_table st hs hqns hq
  have hcur : Routing.Current st (served st ns s q) ns tenant := hqt ▸ current_served hs hqns hq
  have hthen := sameAt_served_of_current st hs₁ hpns (hall₁ p hp) (by rwa [hpt])
  rw [hpt] at hfirst hthen
  rw [hqt] at hother
  exact hfirst.symm.trans (hother.trans hthen)

/-- Children and table after the reconciles of all pairings are those after the reconcile of the
one that they belong to. -/
theorem sameAt_foldl_served (hs : s.Calm) (h : Assigned s ns tenant ps)
    (hall : ∀ p ∈ ps, Servable s ns p) (hp : p ∈ ps) {k : Kind} {key : Key}
    (hk : Teardown.Children ns p.name k key ∨ k = .ingress ∧ key = Routing.tableKey ns tenant) :
    SameAt (served st ns s p) (ps.foldl (served st ns) s) k key := by
  induction ps generalizing s with
  | nil => cases hp
  | cons q ps ih =>
    obtain ⟨hs₁, h₁, hall₁⟩ := h.step st hs hall
    rcases List.mem_cons.1 hp with rfl | hp
    · rcases hk with ⟨hk, rfl⟩ | ⟨rfl, rfl⟩
      · refine .of_eq (agreeOff_foldl_served hs₁ h₁ hall₁ _ _ ?_)
        rintro ⟨r, hr, ⟨-, hkey⟩ | hshared⟩
        · exact h.name_ne hr (Key.inSpace_inj.1 hkey).2.symm
        · rcases hk with rfl | rfl <;> simp [Bundle.Shared] at hshared
      · obtain rfl := h.tenant p List.mem_cons_self
        exact sameAt_foldl_of_current hs₁ h₁ hall₁
          (current_served hs (h.listed p hp).1 (hall p hp))
    · refine SameAt.trans ?_ (ih hs₁ h₁ hall₁ hp)
      rcases hk with hk | ⟨rfl, rfl⟩
      · exact sameAt_children_after hs.filed h hp (hall p (List.mem_cons_of_mem q hp)) hk
      · exact sameAt_table_after st hs h hall hp

/-- The entry that the last pairing of an area gives it. -/
def lastEntry (s : Store) (ns : String) (ps : List Pairing) (area : String) : Option String :=
  ((ps.filterMap (s.resolve? ns)).filter (·.area = area)).getLast?.map (·.entry)

theorem find?_entries_of_reconcileAll (hs : s.Calm) (h : Assigned s ns tenant ps)
    {os : List Outcome} (hrun : (reconcileAll st (ps.map request)).run s = (.ok os, s'))
    (area : String) : (Bundle.entries s' ns tenant).find? area =
      (lastEntry s ns ps area).or ((Bundle.entries s ns tenant).find? area) := by
  obtain ⟨-, -, -, hentries⟩ := run_reconcileAll_ok hs h.listed hrun
  have hall : (ps.filterMap (s.resolve? ns)).filter (·.pairing.content.tenantId = tenant) =
      ps.filterMap (s.resolve? ns) := by
    refine List.filter_eq_self.2 fun q hq => ?_
    obtain ⟨p, hp, hq⟩ := List.mem_filterMap.1 hq
    rw [pairing_of_resolve? hq]
    simpa using h.tenant p hp
  rw [hentries, hall, Bundle.find?_overwrite, lastEntry]

theorem isSome_lastEntry_perm {l l' : List Pairing} (h : l.Perm l') (s : Store) (ns area : String) :
    (lastEntry s ns l area).isSome = (lastEntry s ns l' area).isSome := by
  have hperm := (h.filterMap (s.resolve? ns)).filter fun q => decide (q.area = area)
  rw [lastEntry, lastEntry, Option.isSome_map, Option.isSome_map, Bool.eq_iff_iff,
    List.getLast?_isSome, List.getLast?_isSome, ne_eq, ne_eq, ← List.perm_nil, ← List.perm_nil,
    hperm.congr_left]

end Reconcile

open Reconcile

/-- Where all pairings of a tenant converge in one order, they do so in any other one, and every
object comes out the same up to its version, but for the entries of the bundle: these are those of
the last pairing of each area, and the areas that no pairing has keep theirs. -/
theorem run_reconcileAll_perm (st : Settings) {s s₁ : Store} {ns tenant : String}
    {ps ps' : List Pairing} {os : List Outcome} (hs : s.Reached) (hf : s.faults = [])
    (hshape : ∀ p ∈ s.select .pairing (some ns) (Naming.tenantSelector tenant), Pairing.Shaped p)
    (hps : ps.Perm (s.select .pairing (some ns) (Naming.tenantSelector tenant)))
    (hps' : ps'.Perm (s.select .pairing (some ns) (Naming.tenantSelector tenant)))
    (h : (reconcileAll st (ps.map request)).run s = (.ok os, s₁)) :
    os = ps.map (fun _ => .converged) ∧
      ∃ s₂, (reconcileAll st (ps'.map request)).run s = (.ok (ps'.map fun _ => .converged), s₂) ∧
        (∀ k key, ¬(k = .configMap ∧ key = Bundle.tenantKey ns tenant) → SameAt s₁ s₂ k key) ∧
        (∀ area, (Bundle.entries s₂ ns tenant).contains area =
          (Bundle.entries s₁ ns tenant).contains area) ∧
        (∀ area, (Bundle.entries s₁ ns tenant).find? area =
          (lastEntry s ns ps area).or ((Bundle.entries s ns tenant).find? area)) ∧
        ∀ area, (Bundle.entries s₂ ns tenant).find? area =
          (lastEntry s ns ps' area).or ((Bundle.entries s ns tenant).find? area) := by
  have hc : s.Calm := ⟨hs.filed, hf⟩
  have ha := Assigned.of_perm hs.filed hshape hps
  have ha' := Assigned.of_perm hs.filed hshape hps'
  have hmem : ∀ p, p ∈ ps ↔ p ∈ ps' := fun p => hps.mem_iff.trans hps'.mem_iff.symm
  have hall := servable_of_run_reconcileAll hc ha h
  have hall' : ∀ p ∈ ps', Servable s ns p := fun p hp => hall p ((hmem p).2 hp)
  have hrun := run_reconcileAll_served st hc ha hall
  have hrun' := run_reconcileAll_served st hc ha' hall'
  cases hrun.symm.trans h
  have hentries := find?_entries_of_reconcileAll hc ha hrun
  have hentries' := find?_entries_of_reconcileAll hc ha' hrun'
  refine ⟨rfl, _, hrun', fun k key hk => ?_, fun area => ?_, hentries, hentries'⟩
  · by_cases hp : ∃ p ∈ ps, Teardown.Children ns p.name k key ∨
        k = .ingress ∧ key = Routing.tableKey ns tenant
    · obtain ⟨p, hp, hslot⟩ := hp
      exact (sameAt_foldl_served hc ha hall hp hslot).symm.trans
        (sameAt_foldl_served hc ha' hall' ((hmem p).1 hp) hslot)
    · have hslot : ∀ p ∈ ps, ¬(Teardown.Children ns p.name k key ∨
          Bundle.Shared ns tenant k key) := fun p hmem hslot =>
        hp ⟨p, hmem, hslot.imp id fun hshared => hshared.resolve_left hk⟩
      refine .of_eq ((agreeOff_foldl_served hc ha' hall' k key ?_).trans
        (agreeOff_foldl_served hc ha hall k key ?_).symm)
      · exact fun ⟨p, hp, hpk⟩ => hslot p ((hmem p).2 hp) hpk
      · exact fun ⟨p, hp, hpk⟩ => hslot p hp hpk
  · rw [SortedMap.contains, SortedMap.contains, hentries, hentries', Option.isSome_or,
      Option.isSome_or, isSome_lastEntry_perm (hps'.trans hps.symm)]

section rivals

def pairedRivals : Store := ((reconcile {} ⟨.tenant, .inSpace "dc1" "a"⟩).run rivals).2

theorem reached_pairedRivals : pairedRivals.Reached := reached_rivals.run _

theorem shaped_pairedRivals : pairedRivals.Shaped := by decide

def rivalPairings : List Pairing :=
  pairedRivals.select .pairing (some "dc1") (Naming.tenantSelector "a")

/-- The rival that comes last has its text in the bundle. -/
theorem run_reconcileAll_perm_rivals : pairedRivals.Reached ∧ pairedRivals.faults = [] ∧
    (∀ p ∈ rivalPairings, Pairing.Shaped p) ∧
    ∃ s₁, (reconcileAll {} (rivalPairings.map request)).run pairedRivals =
        (.ok [.converged, .converged], s₁) ∧
      ∃ s₂, (reconcileAll {} (rivalPairings.reverse.map request)).run pairedRivals =
          (.ok [.converged, .converged], s₂) ∧
        (∀ k key, ¬(k = .configMap ∧ key = Bundle.tenantKey "dc1" "a") → SameAt s₁ s₂ k key) ∧
        (Bundle.entries s₁ "dc1" "a").find? "x" =
          some (rivalTemplate "c").content.configuration.entry ∧
        (Bundle.entries s₂ "dc1" "a").find? "x" =
          some (rivalTemplate "b").content.configuration.entry := by
  have hshape : ∀ p ∈ rivalPairings, Pairing.Shaped p := fun p hp =>
    shaped_pairedRivals (reached_pairedRivals.filed.of_mem_select hp).1
  have hrun : (reconcileAll {} (rivalPairings.map request)).run pairedRivals =
      (.ok [.converged, .converged],
        ((reconcileAll {} (rivalPairings.map request)).run pairedRivals).2) := rfl
  obtain ⟨-, s₂, hrun₂, hsame, -, hlast, hlast₂⟩ := run_reconcileAll_perm {} reached_pairedRivals
    rfl hshape (.refl _) (List.reverse_perm _) hrun
  exact ⟨reached_pairedRivals, rfl, hshape, _, hrun, s₂, hrun₂, hsame, (hlast "x").trans rfl,
    (hlast₂ "x").trans rfl⟩

end rivals

end TenantOperator
