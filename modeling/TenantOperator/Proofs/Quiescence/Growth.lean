import TenantOperator.Proofs.Tenancy.Entries
import TenantOperator.Proofs.Tenancy.Matrix
import TenantOperator.Proofs.Tenancy.Workload
import TenantOperator.Tenancy.Reconcile

/-! Stores that grow. While nothing is deleted and no microservice is edited, reconciles add
objects, entries and paths, and none of them takes away what an area in use has got. -/
namespace TenantOperator
open Program Store

/-- A store of one instance in which no object lacks what it stems from. -/
structure Store.Intact (inst : String) (s : Store) : Prop where
  calm : s.Calm
  tenants : ∀ key t, s.find? .tenant key = some t → key.ns = some inst ∧ key.name ≠ ""
  microservices : ∀ key m, s.find? .microservice key = some m → key.ns = some inst ∧ key.name ≠ ""
  pairings : ∀ key p, s.find? .pairing key = some p → Pairing.Shaped p ∧ key.ns = some inst ∧
    (s.find? .tenant (.inSpace inst p.content.tenantId)).isSome ∧
      (s.find? .microservice (.inSpace inst p.content.microserviceId)).isSome
  children : ∀ key, (s.find? .deployment key).isSome → (s.find? .service key).isSome

/-- Objects stay as they are, and areas in use keep their entries and paths. -/
structure Store.Grown (inst : String) (s s' : Store) : Prop where
  intact : s.Intact inst → s'.Intact inst
  kept : ∀ k key r, k ≠ .configMap → k ≠ .ingress → s.find? k key = some r →
    s'.find? k key = some r
  entries : ∀ t area, area ∈ s.areas inst t → (Bundle.entries s inst t).contains area →
    (Bundle.entries s' inst t).contains area
  paths : ∀ t area, area ∈ s.areas inst t →
    Naming.routingPath inst t area ∈ Routing.paths s inst t →
      Naming.routingPath inst t area ∈ Routing.paths s' inst t

namespace Store
variable {inst : String} {s s₁ s' : Store}

/-- What an object of an intact store needs to be there. -/
def Fits (inst : String) (s : Store) : (k : Kind) → Resource k → Prop
  | .tenant, t => t.key.ns = some inst ∧ t.key.name ≠ ""
  | .microservice, m => m.key.ns = some inst ∧ m.key.name ≠ ""
  | .pairing, p => Pairing.Shaped p ∧ p.key.ns = some inst ∧
    (s.find? .tenant (.inSpace inst p.content.tenantId)).isSome ∧
      (s.find? .microservice (.inSpace inst p.content.microserviceId)).isSome
  | .deployment, d => (s.find? .service d.key).isSome
  | _, _ => True

theorem Fits.of_find?_ensured {k l : Kind} {r : Resource k} (hr : Fits inst s k r) {key : Key}
    {x : Resource l} (hx : (s.ensured r).find? l key = some x) :
    s.find? l key = some x ∨ x.key = key ∧ Fits inst s l x := by
  by_cases hk : k = l
  · subst hk
    rcases eq_of_find?_ensured hx with hold | ⟨rfl, v, rfl⟩
    · exact Or.inl hold
    · -- The version of an object does not matter.
      refine Or.inr ⟨Resource.key_withVersion .., ?_⟩
      cases k with
      | pairing => exact ⟨⟨hr.1.name, hr.1.labels⟩, hr.2⟩
      | _ => exact hr
  · left
    rwa [s.agreeOff_ensured r l key fun h => hk h.1.symm] at hx

theorem Intact.ensured (hs : s.Intact inst) {k : Kind} {r : Resource k} (hr : Fits inst s k r) :
    (s.ensured r).Intact inst := by
  have hstays {l : Kind} {key : Key} (h : (s.find? l key).isSome) :
      ((s.ensured r).find? l key).isSome := isSome_find?_ensured_of_isSome h
  refine ⟨hs.calm.ensured r, fun key t ht => ?_, fun key m hm => ?_, fun key p hp => ?_,
    fun key hd => ?_⟩
  · rcases hr.of_find?_ensured ht with hold | ⟨rfl, hfits⟩
    · exact hs.tenants key t hold
    · exact hfits
  · rcases hr.of_find?_ensured hm with hold | ⟨rfl, hfits⟩
    · exact hs.microservices key m hold
    · exact hfits
  · have hparents : Pairing.Shaped p ∧ key.ns = some inst ∧
        (s.find? .tenant (.inSpace inst p.content.tenantId)).isSome ∧
          (s.find? .microservice (.inSpace inst p.content.microserviceId)).isSome := by
      rcases hr.of_find?_ensured hp with hold | ⟨rfl, hfits⟩
      · exact hs.pairings key p hold
      · exact hfits
    obtain ⟨hshape, hns, ht, hm⟩ := hparents
    exact ⟨hshape, hns, hstays ht, hstays hm⟩
  · obtain ⟨d, hd⟩ := Option.isSome_iff_exists.1 hd
    rcases hr.of_find?_ensured hd with hold | ⟨rfl, hfits⟩
    · exact hstays (hs.children key (by rw [hold]; rfl))
    · exact hstays hfits

theorem Intact.of_shared (hs : s.Intact inst) {t : String}
    (h : AgreeOff (Bundle.Shared inst t) s s') (hc : s'.Calm) : s'.Intact inst := by
  have hoff {k : Kind} (hk : k ≠ .configMap ∧ k ≠ .ingress) (key : Key) :
      s'.find? k key = s.find? k key := h k key (by simp [Bundle.Shared, hk])
  refine ⟨hc, fun key t ht => ?_, fun key m hm => ?_, fun key p hp => ?_, fun key hd => ?_⟩
  · rw [hoff (by simp)] at ht
    exact hs.tenants key t ht
  · rw [hoff (by simp)] at hm
    exact hs.microservices key m hm
  · rw [hoff (by simp)] at hp
    rw [hoff (by simp), hoff (by simp)]
    exact hs.pairings key p hp
  · rw [hoff (by simp)] at hd ⊢
    exact hs.children key hd

namespace Grown

theorem refl (inst : String) (s : Store) : Grown inst s s :=
  ⟨id, fun _ _ _ _ _ h => h, fun _ _ _ h => h, fun _ _ _ h => h⟩

theorem areas (h : Grown inst s s') {t area : String} (ha : area ∈ s.areas inst t) :
    area ∈ s'.areas inst t := by
  obtain ⟨p, hp, m, hm, rfl⟩ := mem_areas.1 ha
  obtain ⟨key, hf, hpick⟩ := mem_select.1 hp
  have hp' := mem_select.2 ⟨key, h.kept _ key p (by simp) (by simp) hf, hpick⟩
  exact mem_areas.2 ⟨p, hp', m, h.kept _ _ m (by simp) (by simp) hm, rfl⟩

theorem trans (h : Grown inst s s₁) (h' : Grown inst s₁ s') : Grown inst s s' where
  intact hs := h'.intact (h.intact hs)
  kept k key r hc hi hr := h'.kept k key r hc hi (h.kept k key r hc hi hr)
  entries t area ha hc := h'.entries t area (h.areas ha) (h.entries t area ha hc)
  paths t area ha hc := h'.paths t area (h.areas ha) (h.paths t area ha hc)

theorem isSome (h : Grown inst s s') {k : Kind} {key : Key} (hs : (s.find? k key).isSome)
    (hk : k ≠ .configMap ∧ k ≠ .ingress := by simp) : (s'.find? k key).isSome := by
  obtain ⟨r, hr⟩ := Option.isSome_iff_exists.1 hs
  rw [h.kept k key r hk.1 hk.2 hr]
  rfl

theorem ensured {k : Kind} {r : Resource k} (hr : Fits inst s k r) :
    Grown inst s (s.ensured r) where
  intact hs := hs.ensured hr
  kept _ _ _ _ _ h := find?_ensured_of_some h
  entries t area _ hc := by
    obtain ⟨cm, hcm⟩ := Option.isSome_iff_exists.1 (Bundle.isSome_of_contains hc)
    rw [Bundle.entries_of_some hcm] at hc
    rwa [Bundle.entries_of_some (find?_ensured_of_some hcm)]
  paths t area _ hp := by
    cases htable : s.find? .ingress (Routing.tableKey inst t) with
    | none =>
      rw [Routing.paths, htable] at hp
      cases hp
    | some table =>
      have hsame : (s.ensured r).find? .ingress (Routing.tableKey inst t) =
          s.find? .ingress (Routing.tableKey inst t) := by
        rw [htable]
        exact find?_ensured_of_some htable
      rwa [Routing.paths_congr hsame]

theorem of_shared {t : String} (h : AgreeOff (Bundle.Shared inst t) s s') (hc : s.Calm → s'.Calm)
    (he : ∀ area, area ∈ s.areas inst t → (Bundle.entries s inst t).contains area →
      (Bundle.entries s' inst t).contains area)
    (hp : ∀ area, area ∈ s.areas inst t →
      Naming.routingPath inst t area ∈ Routing.paths s inst t →
        Naming.routingPath inst t area ∈ Routing.paths s' inst t) : Grown inst s s' where
  intact hs := hs.of_shared h (hc hs.calm)
  kept k key r hc hi hr := by rwa [h k key (by simp [Bundle.Shared, hc, hi])]
  entries u area ha hc := by
    by_cases hu : u = t
    · subst hu
      exact he area ha hc
    · rwa [Bundle.entries_congr (h _ _ (by simp [Bundle.Shared, Bundle.tenantKey_inj, hu]))]
  paths u area ha hc := by
    by_cases hu : u = t
    · subst hu
      exact hp area ha hc
    · rwa [Routing.paths_congr (h _ _ (by simp [Bundle.Shared, Routing.tableKey_inj, hu]))]

/-- A write of the bundle that keeps the entries of areas in use. -/
theorem of_bundle {t : String} {change : Option ConfigMap → Option ConfigMap}
    (hc : s.Calm → (s.upserted (Bundle.tenantKey inst t) change).Calm)
    (he : ∀ area, area ∈ s.areas inst t → (Bundle.entries s inst t).contains area →
      (Bundle.entries (s.upserted (Bundle.tenantKey inst t) change) inst t).contains area) :
    Grown inst s (s.upserted (Bundle.tenantKey inst t) change) := by
  have hoff := s.agreeOff_upserted (Bundle.tenantKey inst t) change
  refine of_shared (hoff.mono fun _ _ h => Or.inl h) hc he fun area _ hp => ?_
  rwa [Routing.paths_congr (hoff _ _ (by simp))]

theorem rebuilt (st : Settings) (s : Store) (t : String) :
    Grown inst s (Routing.rebuilt st s inst t) := by
  have hoff := Routing.agreeOff_rebuilt st inst t s
  refine of_shared (hoff.mono fun _ _ h => Or.inr h) (Routing.calm_rebuilt st inst t)
    (fun area _ hc => ?_) fun area ha _ => ?_
  · rwa [Bundle.entries_congr (hoff _ _ (by simp))]
  · -- The rebuilt table routes whatever is in use.
    have hareas : (Routing.rebuilt st s inst t).resolved inst t = s.resolved inst t :=
      hoff.resolved_eq (by simp) (by simp)
    rw [Store.areas, ← hareas] at ha
    obtain ⟨q, hq, rfl⟩ := List.mem_map.1 ha
    exact Routing.mem_paths_of_current (Routing.current_rebuilt st inst t s) hq

theorem synced (st : Settings) (s : Store) (t : String) :
    Grown inst s (Teardown.synced st s inst t) := by
  refine (of_bundle (fun hs => hs.upserted_of_fits Bundle.fits_mergeInto)
    fun area ha hc => ?_).trans (rebuilt st _ t)
  exact Bundle.contains_entries_mergeInto.2 ⟨Bundle.isSome_of_contains hc, ha⟩

theorem bind {α β : Type} {p : Program α} {f : α → Program β} (hp : Grown inst s (p.run s).2)
    (hf : ∀ a s₁, p.run s = (.ok a, s₁) → Grown inst s₁ ((f a).run s₁).2) :
    Grown inst s ((p >>= f).run s).2 := by
  rw [run_bind]
  rcases hrun : p.run s with ⟨x, s₁⟩
  rw [hrun] at hp
  cases x with
  | ok a => exact hp.trans (hf a s₁ hrun)
  | error e => exact hp

end Grown
end Store

section reconcile
variable {inst : String} {s : Store} (st : Settings)

theorem Matrix.grown_pairAll {t : String} (ms : List Microservice) (hs : s.Intact inst)
    (ht : (s.find? .tenant (.inSpace inst t)).isSome)
    (hms : ∀ m ∈ ms, (s.find? .microservice (.inSpace inst m.name)).isSome) :
    Grown inst s ((pairAll inst t ms).run s).2 := by
  induction ms generalizing s with
  | nil => exact .refl inst s
  | cons m ms ih =>
    refine .bind ?_ fun c s₁ hc => ?_
    · refine .bind ?_ fun _ _ _ => .refl ..
      cases htemplate : s.find? .microserviceTemplate (.clusterWide m.content.configurationId) with
      | some template =>
        rw [hs.calm.run_getRequired htemplate]
        exact .refl inst s
      | none =>
        rw [getRequired, run_bind_of_ok (hs.calm.run_get _), htemplate]
        exact .refl inst s
    · obtain ⟨-, rfl⟩ := run_templateConfiguration_ok hc
      have hm := hms m List.mem_cons_self
      have hgrown : Grown inst s₁ (s₁.ensured (Pairing.forPair inst t m.name c)) :=
        .ensured ⟨Pairing.shaped_forPair inst t m.name c none, rfl, ht, hm⟩
      rw [run_bind_of_ok (hs.calm.run_ensureCreated (n := Naming.pairing t m.name) rfl)]
      refine hgrown.trans (.bind ?_ fun _ _ _ => .refl ..)
      exact ih (hgrown.intact hs) (hgrown.isSome ht) fun q hq =>
        hgrown.isSome (hms q (List.mem_cons_of_mem m hq))

theorem Matrix.grown_resolveTenant {t : Tenant} (hs : s.Intact inst)
    (ht : s.find? .tenant (.inSpace inst t.name) = some t) :
    Grown inst s ((resolveTenant t).run s).2 := by
  have hns : t.metadata.ns = some inst := congrArg Key.ns (hs.calm.filed ht)
  simp only [resolveTenant, hns]
  rw [run_bind_of_ok (hs.calm.run_list ..), run_bind_of_ok (hs.calm.run_list ..)]
  refine grown_pairAll _ hs (by rw [ht]; rfl) fun m hm => ?_
  obtain ⟨-, hf, -⟩ := hs.calm.filed.of_mem_space (List.mem_filter.1 hm).1
  rw [hf]
  rfl

namespace Reconcile

theorem grown_inst (key : Key) (hs : s.Intact inst) :
    Grown inst s ((Reconcile.inst key).run s).2 := by
  rw [Reconcile.inst, run_bind_of_ok (hs.calm.run_get key)]
  cases s.find? .inst key with
  | none => exact .refl inst s
  | some i =>
    refine .bind ?_ fun _ s₁ hv => ?_
    · cases i.content.validate <;> exact .refl inst s
    · obtain ⟨-, rfl⟩ := run_ofExcept_ok hv
      have hspace : Grown inst s₁ (s₁.ensured (space key.name)) := .ensured trivial
      rw [run_bind_of_ok (hs.calm.run_ensureCreated (n := key.name) rfl)]
      refine hspace.trans ?_
      have hs₂ := hspace.intact hs
      rw [run_bind_of_ok (hs₂.calm.run_get _)]
      cases (s₁.ensured (space key.name)).find? .configMap (Bundle.instanceKey key.name) with
      | some cm => exact .refl ..
      | none =>
        refine .bind ?_ fun template s₃ ht => .bind ?_ fun _ _ _ => .refl ..
        · rw [getRequired, run_bind_of_ok (hs₂.calm.run_get _)]
          cases (s₁.ensured (space key.name)).find? .instTemplate
            (.clusterWide i.content.configurationId) <;> exact .refl ..
        · obtain ⟨-, rfl⟩ := run_getRequired_ok ht
          rw [Bundle.ensureInstance, run_bind_of_ok (hs₂.calm.run_ensureCreated
            (n := (Bundle.instanceKey key.name).name) rfl)]
          have hbundle : Grown inst (s₁.ensured (space key.name))
              ((s₁.ensured (space key.name)).ensured
                (Bundle.ofInstance key.name template.content.configuration)) :=
            .ensured trivial
          refine hbundle.trans ?_
          split <;> exact .refl ..

theorem grown_tenant {key : Key} {t : Tenant} (hs : s.Intact inst)
    (ht : s.find? .tenant key = some t) :
    Grown inst s ((Reconcile.tenant st inst key).run s).2 := by
  obtain rfl : t.key = key := hs.calm.filed ht
  obtain ⟨hns, -⟩ := hs.tenants _ t ht
  have hkey : t.key = .inSpace inst t.name := congrArg (Key.mk t.name) hns
  have ht' : s.find? .tenant (.inSpace inst t.name) = some t := hkey ▸ ht
  rw [Reconcile.tenant, run_bind_of_ok (hs.calm.run_get _), ht]
  exact .bind (Matrix.grown_resolveTenant hs ht') fun _ _ _ => .refl ..

theorem grown_tenants (ts : List Tenant) (hs : s.Intact inst)
    (hts : ∀ t ∈ ts, s.find? .tenant (.inSpace inst t.name) = some t) :
    Grown inst s ((Reconcile.tenants st inst ts).run s).2 := by
  induction ts generalizing s with
  | nil => exact .refl inst s
  | cons t ts ih =>
    have hresolve := Matrix.grown_resolveTenant hs (hts t List.mem_cons_self)
    refine .bind hresolve fun _ s₁ hrun => ?_
    rw [hrun] at hresolve
    have hs₁ := hresolve.intact hs
    have ht₁ : (s₁.find? .tenant (.inSpace inst t.name)).isSome :=
      hresolve.isSome (by rw [hts t List.mem_cons_self]; rfl)
    rw [run_bind_of_ok (Teardown.run_syncTenant_alive st inst t.name hs₁.calm ht₁)]
    have hsync : Grown inst s₁ (Teardown.synced st s₁ inst t.name) := .synced st s₁ t.name
    refine hsync.trans (ih (hsync.intact hs₁) fun u hu => ?_)
    have hu' := hts u (List.mem_cons_of_mem t hu)
    exact (hresolve.trans hsync).kept _ _ u (by simp) (by simp) hu'

theorem grown_microservice {key : Key} {m : Microservice} (hs : s.Intact inst)
    (hm : s.find? .microservice key = some m) :
    Grown inst s ((Reconcile.microservice st inst key).run s).2 := by
  rw [Reconcile.microservice, run_bind_of_ok (hs.calm.run_get key), hm]
  refine .bind ?_ fun _ s₁ hv => ?_
  · cases m.content.validate <;> exact .refl inst s
  · obtain ⟨-, rfl⟩ := run_ofExcept_ok hv
    rw [run_bind_of_ok (hs.calm.run_list ..)]
    refine .bind (grown_tenants st _ hs fun t ht => ?_) fun _ _ _ => .refl ..
    exact (hs.calm.filed.of_mem_space ht).2.1

end Reconcile

end reconcile

end TenantOperator
