import TenantOperator.Proofs.Tenancy.Cascade
import TenantOperator.Proofs.Tenancy.Workload

/-! Reconciles that are repeated. For each kind of entity, what the first run left is enough for the
second one to come to the same outcome without a write. -/
namespace TenantOperator
namespace Reconcile
open Program Store

variable {s s' : Store} {o : Outcome}

theorem rests_inst_converged (hs : s.Calm) {key : Key} {i : Instance}
    (hi : s.find? .inst key = some i) (hv : i.content.validate = .ok ())
    (hsp : (s.find? .space (space key.name).key).isSome)
    (hcm : (s.find? .configMap (Bundle.instanceKey key.name)).isSome) :
    (inst key).Rests s .converged := by
  obtain ⟨cm, hcm⟩ := Option.isSome_iff_exists.1 hcm
  have hspace := hs.rests_ensureCreated (n := key.name) rfl hsp
  exact Rests.bind (hs.rests_get hi) <| Rests.bind (rests_ofExcept hv s) <|
    Rests.bind hspace <| Rests.bind (hs.rests_get hcm) rfl

theorem run_inst_live_ok (hs : s.Calm) {key : Key} {i : Instance}
    (hi : s.find? .inst key = some i) (h : (inst key).run s = (.ok o, s')) :
    o = .converged ∧ s'.Calm ∧ s'.find? .inst key = some i ∧ i.content.validate = .ok () ∧
      (s'.find? .space (space key.name).key).isSome ∧
      (s'.find? .configMap (Bundle.instanceKey key.name)).isSome := by
  rw [inst, run_bind_of_ok (hs.rests_get hi)] at h
  dsimp only at h
  rw [run_bind_ok] at h
  obtain ⟨_, s₁, hok, h⟩ := h
  obtain ⟨hv, rfl⟩ := run_ofExcept_ok hok
  rw [run_bind_ok] at h
  obtain ⟨made, s₂, hsp, h⟩ := h
  obtain ⟨-, rfl⟩ := run_ensureCreated_ok (n := key.name) rfl hsp
  have hi₂ : (s₁.ensured (space key.name)).find? .inst key = some i := find?_ensured_of_some hi
  have hsp₂ := isSome_find?_ensured s₁ (space key.name)
  rw [run_bind_ok] at h
  obtain ⟨cm, s₃, hget, h⟩ := h
  obtain ⟨hcm, rfl⟩ := run_get_ok hget
  cases cm with
  | some cm =>
    cases h
    exact ⟨rfl, hs.ensured _, hi₂, hv, hsp₂, by rw [hcm]; rfl⟩
  | none =>
    dsimp only at h
    rw [run_bind_ok] at h
    obtain ⟨t, s₄, ht, h⟩ := h
    obtain ⟨-, rfl⟩ := run_getRequired_ok ht
    rw [Bundle.ensureInstance, Program.bind_assoc, run_bind_ok] at h
    obtain ⟨b, s₅, hb, h⟩ := h
    obtain ⟨-, rfl⟩ := run_ensureCreated_ok (n := Naming.instanceBundle key.name) rfl hb
    obtain ⟨r, hr⟩ := Option.isSome_iff_exists.1 hsp₂
    obtain ⟨rfl, rfl⟩ : Outcome.converged = o ∧ (s₁.ensured (space key.name)).ensured
        (Bundle.ofInstance key.name t.content.configuration) = s' := by
      cases b <;> cases h <;> exact ⟨rfl, rfl⟩
    refine ⟨rfl, (hs.ensured _).ensured _, find?_ensured_of_some hi₂, hv, ?_,
      isSome_find?_ensured ..⟩
    rw [find?_ensured_of_some hr]
    rfl

theorem rests_inst (hs : s.Calm) {key : Key} (h : (inst key).run s = (.ok o, s')) :
    (inst key).Rests s' o := by
  cases hi : s.find? .inst key with
  | some i =>
    obtain ⟨rfl, hs', hi', hv, hsp, hcm⟩ := run_inst_live_ok hs hi h
    exact rests_inst_converged hs' hi' hv hsp hcm
  | none =>
    rw [inst, run_bind_of_ok (hs.rests_get hi)] at h
    cases h
    exact Rests.bind (hs.rests_get hi) rfl

theorem rests_tenant (st : Settings) (hs : s.Calm) {ns tenant : String}
    (h : (Reconcile.tenant st ns (.inSpace ns tenant)).run s = (.ok o, s')) :
    (Reconcile.tenant st ns (.inSpace ns tenant)).Rests s' o := by
  cases ht : s.find? .tenant (.inSpace ns tenant) with
  | some t =>
    rw [Reconcile.tenant, run_bind_of_ok (hs.rests_get ht)] at h
    dsimp only at h
    rw [run_bind_ok] at h
    obtain ⟨n, s₁, hn, h⟩ := h
    cases h
    obtain ⟨ns', hns, hst, hc⟩ := Matrix.run_resolveTenant_ok hn
    have hs' := hst.calm hs
    obtain ⟨m, hm⟩ := Matrix.rests_resolveTenant hs' hns hc
    have ht' : s'.find? .tenant (.inSpace ns tenant) = some t := by rw [hst.find?_eq, ht]
    exact Rests.bind (hs'.rests_get ht') (Rests.bind hm rfl)
  | none =>
    rw [Reconcile.tenant, run_bind_of_ok (hs.rests_get ht)] at h
    obtain ⟨s₁, hr, hc, ha, hgone, hsel⟩ := Teardown.run_tenant st ns tenant hs
    obtain ⟨rfl, rfl⟩ := run_bind_pure_eq hr h
    have ht' : s₁.find? .tenant (.inSpace ns tenant) = none := by
      rw [ha _ _ (by simp [Teardown.Swept, Teardown.Children, Bundle.Shared]), ht]
    refine Rests.bind (hc.rests_get ht')
      (Rests.bind (Teardown.rests_tenant st ns tenant hc hsel ?_ ?_) rfl)
    · exact hgone _ _ (Or.inl (Or.inl ⟨rfl, rfl⟩))
    · exact hgone _ _ (Or.inl (Or.inr ⟨rfl, rfl⟩))

theorem alive_of_mem_select (hs : s.Filed) {ns : String} {t : Tenant}
    (ht : t ∈ s.select .tenant (some ns) ∅) :
    t.metadata.ns = some ns ∧ (s.find? .tenant (.inSpace ns t.name)).isSome := by
  obtain ⟨hkey, hf, -⟩ := hs.of_mem_space ht
  exact ⟨congrArg Key.ns hkey, by rw [hf]; rfl⟩

theorem run_tenants_ok (st : Settings) {ns : String} {ts : List Tenant} (hs : s.Calm)
    (hnames : (ts.map (·.name)).Nodup)
    (hts : ∀ t ∈ ts, t.metadata.ns = some ns ∧ (s.find? .tenant (.inSpace ns t.name)).isSome)
    (h : (tenants st ns ts).run s = (.ok (), s')) :
    Matrix.Stage ns (· ∈ ts.map (·.name)) s s' ∧
      ∀ t ∈ ts, Matrix.Complete s' ns t.name ∧ Teardown.Settled st s' ns t.name := by
  induction ts generalizing s with
  | nil =>
    cases h
    exact ⟨.refl ns _ _, by simp⟩
  | cons t ts ih =>
    obtain ⟨hfresh, hnames⟩ := List.nodup_cons.1 hnames
    obtain ⟨hns, halive⟩ := hts t List.mem_cons_self
    rw [tenants, run_bind_ok] at h
    obtain ⟨n, s₁, hn, h⟩ := h
    obtain ⟨ns', hns', hst₁, hc₁⟩ := Matrix.run_resolveTenant_ok hn
    rw [hns] at hns'
    cases hns'
    rw [← hst₁.find?_eq] at halive
    rw [run_bind_of_ok (Teardown.run_syncTenant_alive st ns t.name (hst₁.calm hs) halive)] at h
    have hst₂ := Matrix.Stage.synced st s₁ ns t.name
    have hst := hst₁.trans hst₂
    obtain ⟨hst₃, hall⟩ := ih (hst.calm hs) hnames
      (fun u hu => by
        rw [hst.find?_eq]
        exact hts u (List.mem_cons_of_mem t hu)) h
    refine ⟨?_, ?_⟩
    · refine (hst.mono ?_).trans (hst₃.mono ?_)
      · rintro u rfl
        simp
      · intro u hu
        exact List.mem_cons_of_mem _ hu
    · intro u hu
      rcases List.mem_cons.1 hu with rfl | hu
      · exact ⟨(hc₁.stage hst₂).stage hst₃,
          hst₃.settled hfresh (Teardown.settled_synced st ns u.name s₁)⟩
      · exact hall u hu

theorem rests_tenants (st : Settings) {ns : String} {ts : List Tenant} (hs : s.Calm)
    (hts : ∀ t ∈ ts, t.metadata.ns = some ns ∧ (s.find? .tenant (.inSpace ns t.name)).isSome)
    (hall : ∀ t ∈ ts, Matrix.Complete s ns t.name ∧ Teardown.Settled st s ns t.name) :
    (tenants st ns ts).Rests s () := by
  induction ts with
  | nil => rfl
  | cons t ts ih =>
    obtain ⟨hns, halive⟩ := hts t List.mem_cons_self
    obtain ⟨hc, hset⟩ := hall t List.mem_cons_self
    obtain ⟨n, hn⟩ := Matrix.rests_resolveTenant hs hns hc
    have hsync := Teardown.run_syncTenant_alive st ns t.name hs halive
    rw [Teardown.synced_of_settled st ns t.name hset] at hsync
    have hrest := ih (fun u hu => hts u (List.mem_cons_of_mem t hu))
      fun u hu => hall u (List.mem_cons_of_mem t hu)
    exact Rests.bind hn (Rests.bind hsync hrest)

theorem run_microservice_tenants (st : Settings) (hs : s.Calm) {ns : String} {key : Key}
    {m : Microservice} (hm : s.find? .microservice key = some m)
    (h : (Reconcile.microservice st ns key).run s = (.ok o, s')) :
    o = .converged ∧ m.content.validate = .ok () ∧
      (tenants st ns (s.select .tenant (some ns) ∅)).run s = (.ok (), s') := by
  rw [Reconcile.microservice, run_bind_of_ok (hs.rests_get hm)] at h
  dsimp only at h
  rw [run_bind_ok] at h
  obtain ⟨_, s₁, hok, h⟩ := h
  obtain ⟨hv, rfl⟩ := run_ofExcept_ok hok
  rw [run_bind_of_ok (hs.run_list ..), run_bind_ok] at h
  obtain ⟨_, s₂, ht, h⟩ := h
  cases h
  exact ⟨rfl, hv, ht⟩

/-- The first run of a live microservice pairs and syncs all tenants of its namespace. -/
theorem run_microservice_live_ok (st : Settings) (hs : s.Calm) {ns : String} {key : Key}
    {m : Microservice} (hm : s.find? .microservice key = some m)
    (h : (Reconcile.microservice st ns key).run s = (.ok o, s')) :
    o = .converged ∧ m.content.validate = .ok () ∧ s'.Calm ∧
      s'.find? .microservice key = some m ∧
      ∀ t ∈ s'.select .tenant (some ns) ∅,
        Matrix.Complete s' ns t.name ∧ Teardown.Settled st s' ns t.name := by
  obtain ⟨rfl, hv, ht⟩ := run_microservice_tenants st hs hm h
  obtain ⟨hst, hall⟩ := run_tenants_ok st hs (hs.filed.nodup_names ..)
    (fun t hmem => alive_of_mem_select hs.filed hmem) ht
  have hsel : s'.select .tenant (some ns) ∅ = s.select .tenant (some ns) ∅ :=
    select_congr fun key t _ => by rw [hst.find?_eq]
  exact ⟨rfl, hv, hst.calm hs, by rw [hst.find?_eq, hm], hsel ▸ hall⟩

theorem rests_microservice (st : Settings) (hs : s.Calm) {ns m : String}
    (h : (Reconcile.microservice st ns (.inSpace ns m)).run s = (.ok o, s')) :
    (Reconcile.microservice st ns (.inSpace ns m)).Rests s' o := by
  cases hm : s.find? .microservice (.inSpace ns m) with
  | some r =>
    obtain ⟨rfl, hv, hs', hm', hall⟩ := run_microservice_live_ok st hs hm h
    have hrest : (tenants st ns (s'.select .tenant (some ns) ∅)).Rests s' () :=
      rests_tenants st hs' (fun t hmem => alive_of_mem_select hs'.filed hmem) hall
    exact Rests.bind (hs'.rests_get hm') <| Rests.bind (rests_ofExcept hv s') <|
      Rests.bind (hs'.run_list ..) <| Rests.bind hrest rfl
  | none =>
    rw [Reconcile.microservice, run_bind_of_ok (hs.rests_get hm)] at h
    obtain ⟨s₁, hp, hc, ha, -, hsel⟩ :=
      Teardown.run_pairings st ns hs (Naming.microserviceSelector m)
    obtain ⟨rfl, rfl⟩ := run_bind_pure_eq hp h
    have hm' : s₁.find? .microservice (.inSpace ns m) = none := by
      rw [ha _ _ (by simp [Teardown.Swept, Teardown.Children, Bundle.Shared]), hm]
    exact Rests.bind (hc.rests_get hm') (Rests.bind (Teardown.rests_pairings st ns hc hsel) rfl)

theorem run_pairing_gone (st : Settings) (hs : s.Calm) {ns name : String}
    (hp : s.find? .pairing (.inSpace ns name) = none) :
    (Reconcile.pairing st ns (.inSpace ns name)).run s = (.ok .tornDown,
      (Teardown.told s (.inSpace ns name)).elim s fun t => Teardown.cleared st ns name t s) := by
  rw [Reconcile.pairing, run_bind_of_ok (hs.rests_get hp)]
  exact run_bind_of_ok (Teardown.run_pairing_none st ns name hs)

/-- All that a live pairing's reconcile looks for. -/
structure Converged (st : Settings) (s : Store) (ns : String) (p : Pairing) : Prop where
  valid : p.content.validate = .ok ()
  tenant : (s.find? .tenant (.inSpace ns p.content.tenantId)).isSome
  ready : Workload.Ready s p
  entry : ∃ m, s.find? .microservice (.inSpace ns p.content.microserviceId) = some m ∧
    Bundle.setEntry (Bundle.tenantKey ns p.content.tenantId) m.content.functionalArea
      (Configuration.entry p.content.configuration)
      (s.find? .configMap (Bundle.tenantKey ns p.content.tenantId)) = none
  table : Routing.Current st s ns p.content.tenantId

theorem rests_pairing_converged (st : Settings) (hs : s.Calm) {ns : String} {key : Key}
    {p : Pairing} (hp : s.find? .pairing key = some p) (h : Converged st s ns p) :
    (Reconcile.pairing st ns key).Rests s .converged := by
  obtain ⟨t, ht⟩ := Option.isSome_iff_exists.1 h.tenant
  obtain ⟨x, hx⟩ := Workload.rests_synthesize hs h.ready
  obtain ⟨m, hm, he⟩ := h.entry
  have hentry := Bundle.run_applyEntry st ns p.content.tenantId hs m.content.functionalArea
    p.content.configuration
  rw [upserted_of_none he] at hentry
  have htable := Routing.run_rebuild st ns p.content.tenantId hs
  rw [Routing.rebuilt_of_current st ns p.content.tenantId h.table] at htable
  have hgone := Teardown.run_discardIfTenantGone_alive ns p.content.tenantId hs h.tenant
  exact Rests.bind (hs.rests_get hp) <| Rests.bind (rests_ofExcept h.valid s) <|
    Rests.bind (Workload.rests_parent hs ht) <| Rests.bind hx <|
    Rests.bind (Workload.rests_parent hs hm) <| Rests.bind hentry <| Rests.bind htable <|
    Rests.bind hgone rfl

/-- The first run of a live pairing leaves all of it. -/
theorem run_pairing_live_ok (st : Settings) (hs : s.Calm) {ns : String} {key : Key} {p : Pairing}
    (hp : s.find? .pairing key = some p)
    (h : (Reconcile.pairing st ns key).run s = (.ok o, s')) :
    o = .converged ∧ s'.Calm ∧ s'.find? .pairing key = some p ∧ Converged st s' ns p := by
  rw [Reconcile.pairing, run_bind_of_ok (hs.rests_get hp)] at h
  dsimp only at h
  rw [run_bind_ok] at h
  obtain ⟨_, s₁, hok, h⟩ := h
  obtain ⟨hv, rfl⟩ := run_ofExcept_ok hok
  rw [run_bind_ok] at h
  obtain ⟨t, s₂, ht, h⟩ := h
  obtain ⟨hft, rfl⟩ := Workload.run_parent_ok ht
  rw [run_bind_ok] at h
  obtain ⟨x, s₃, hx, h⟩ := h
  obtain ⟨hready, ha₃, hc₃⟩ := Workload.run_synthesize_ok hx
  have hs₃ := hc₃ hs
  rw [run_bind_ok] at h
  obtain ⟨m, s₄, hm, h⟩ := h
  obtain ⟨hfm, rfl⟩ := Workload.run_parent_ok hm
  rw [run_bind_of_ok (Bundle.run_applyEntry st ns p.content.tenantId hs₃ _ _)] at h
  -- From here on only the bundle and the routing table change.
  let change := Bundle.setEntry (Bundle.tenantKey ns p.content.tenantId) m.content.functionalArea
    (Configuration.entry p.content.configuration)
  let s₅ := s₄.upserted (Bundle.tenantKey ns p.content.tenantId) change
  have hs₅ : s₅.Calm := hs₃.upserted_of_fits Bundle.fits_setEntry
  have ha₅ : AgreeOff (fun k _ => k = .configMap ∨ k = .ingress) s₄ s₅ :=
    (s₄.agreeOff_upserted _ change).mono fun k key hk => Or.inl hk.1
  have hentry : change (s₅.find? .configMap (Bundle.tenantKey ns p.content.tenantId)) = none := by
    rw [find?_upserted]
    cases hch : change (s₄.find? .configMap (Bundle.tenantKey ns p.content.tenantId)) with
    | none => exact hch
    | some cm => exact Bundle.setEntry_of_set hch _
  rw [run_bind_of_ok (Routing.run_rebuild st ns p.content.tenantId hs₅)] at h
  have hs₆ := Routing.calm_rebuilt st ns p.content.tenantId hs₅
  have hr₆ := Routing.agreeOff_rebuilt st ns p.content.tenantId s₅
  have ha₆ : AgreeOff (fun k _ => k = .configMap ∨ k = .ingress) s₄
      (Routing.rebuilt st s₅ ns p.content.tenantId) :=
    ha₅.trans (hr₆.mono fun k key hk => Or.inr hk.1)
  have halive : ((Routing.rebuilt st s₅ ns p.content.tenantId).find? .tenant
      (.inSpace ns p.content.tenantId)).isSome := by
    rw [ha₆ _ _ (by simp), ha₃ _ _ (by simp), hft]
    rfl
  rw [run_bind_of_ok (Teardown.run_discardIfTenantGone_alive ns p.content.tenantId hs₆ halive)] at h
  cases h
  refine ⟨rfl, hs₆, ?_, hv, halive, hready.congr ha₆, ⟨m, ?_, ?_⟩, Routing.current_rebuilt ..⟩
  · rw [ha₆ _ _ (by simp), ha₃ _ _ (by simp), hp]
  · rw [ha₆ _ _ (by simp), hfm]
  · rw [hr₆ _ _ (by simp)]
    exact hentry

theorem rests_pairing (st : Settings) (hs : s.Calm) {ns name : String}
    (h : (Reconcile.pairing st ns (.inSpace ns name)).run s = (.ok o, s')) :
    (Reconcile.pairing st ns (.inSpace ns name)).Rests s' o := by
  cases hp : s.find? .pairing (.inSpace ns name) with
  | some p =>
    obtain ⟨rfl, hs', hp', hconv⟩ := run_pairing_live_ok st hs hp h
    exact rests_pairing_converged st hs' hp' hconv
  | none =>
    have hrun := run_pairing_gone st hs hp
    cases hrun.symm.trans h
    cases htold : Teardown.told s (.inSpace ns name) with
    | none =>
      rw [htold] at hrun
      exact hrun
    | some t =>
      -- Once it was cleared, no child tells a tenant any more.
      have hgone : (Teardown.cleared st ns name t s).find? .pairing (.inSpace ns name) = none := by
        rw [Teardown.agreeOff_cleared st ns name t s _ _
          (by simp [Bundle.Shared, Teardown.Children]), hp]
      have hrest := run_pairing_gone st (Teardown.calm_cleared st ns name t hs) hgone
      rwa [Teardown.told_cleared] at hrest

end Reconcile

/-- A reconcile that ended well, repeated right away, ends with the same outcome and changes neither
an object nor the version counter. -/
theorem reconcile_idempotent (st : Settings) (r : ReconcileRequest) {s s' : Store} {o : Outcome}
    (hs : s.Reached) (hf : s.faults = []) (h : (reconcile st r).run s = (.ok o, s')) :
    (reconcile st r).run s' = (.ok o, s') := by
  have hc : s.Calm := ⟨hs.filed, hf⟩
  obtain ⟨kind, name, ns⟩ := r
  cases kind with
  | inst => exact Reconcile.rests_inst hc h
  | tenant =>
    cases ns with
    | none => cases h
    | some ns => exact Reconcile.rests_tenant st hc h
  | microservice =>
    cases ns with
    | none => cases h
    | some ns => exact Reconcile.rests_microservice st hc h
  | pairing =>
    cases ns with
    | none => cases h
    | some ns => exact Reconcile.rests_pairing st hc h

/-- Two microservices and a tenant, then the reconcile of one of the microservices. -/
def expanded : Store :=
  ((reconcile {} ⟨.microservice, .inSpace "dc1" "c"⟩).run
    (Matrix.declared.perform (.create .tenant (Matrix.bareTenant "a"))).2).2

theorem run_reconcile_expanded :
    (reconcile {} ⟨.microservice, .inSpace "dc1" "c"⟩).run expanded =
      (.ok .converged, expanded) := by
  have hs := Matrix.reached_declared.call (.create .tenant (Matrix.bareTenant "a"))
  exact reconcile_idempotent {} _ hs rfl rfl

end TenantOperator
