import TenantOperator.Proofs.Store.Faults
import TenantOperator.Proofs.Tenancy.Routing

/-! Syncing tenants and clearing pairings, on a store without faults. Each changes the bundle and
the routing table of its tenant, and clearing takes the pairing's children as well. -/
namespace TenantOperator
namespace Teardown
open Program Store

section run
variable {s : Store} (st : Settings) (ns tenant : String)

theorem run_discardIfTenantGone_alive (hs : s.Calm)
    (ht : (s.find? .tenant (.inSpace ns tenant)).isSome) :
    (discardIfTenantGone ns tenant).Rests s false := by
  obtain ⟨t, ht⟩ := Option.isSome_iff_exists.1 ht
  exact Rests.bind (hs.rests_get ht) rfl

theorem run_discardIfTenantGone_gone (hs : s.Calm)
    (ht : s.find? .tenant (.inSpace ns tenant) = none) :
    (discardIfTenantGone ns tenant).run s =
      (.ok true, (s.remove .configMap (Bundle.tenantKey ns tenant)).remove .ingress
        (Routing.tableKey ns tenant)) := by
  rw [discardIfTenantGone, run_bind_of_ok (hs.run_get _), ht]
  show (Bundle.deleteTenant ns tenant >>= _).run s = _
  rw [run_bind_of_ok (Bundle.run_deleteTenant ns tenant hs),
    run_bind_of_ok (Routing.run_delete ns tenant (hs.remove ..)), run_pure]

/-- Bundle and routing table are what the tenant's pairings ask for. -/
def Settled (s : Store) (ns tenant : String) : Prop :=
  Bundle.Synced s ns tenant ∧ Routing.Current st s ns tenant

theorem Settled.congr {s' : Store} (h : Settled st s ns tenant)
    (hr : s'.resolved ns tenant = s.resolved ns tenant)
    (hb : ∀ k key, Bundle.Shared ns tenant k key → s'.find? k key = s.find? k key) :
    Settled st s' ns tenant := by
  refine ⟨?_, h.2.congr st ns tenant hr (hb _ _ (Or.inr ⟨rfl, rfl⟩))⟩
  rw [Bundle.Synced, hr, hb _ _ (Or.inl ⟨rfl, rfl⟩)]
  exact h.1

/-- The store after the tenant's pairings were written to its bundle and its routing table. -/
def synced (s : Store) (ns tenant : String) : Store :=
  Routing.rebuilt st
    (s.upserted (Bundle.tenantKey ns tenant)
      (Bundle.mergeInto (Bundle.candidates (s.resolved ns tenant)))) ns tenant

theorem agreeOff_synced (s : Store) :
    AgreeOff (Bundle.Shared ns tenant) s (synced st s ns tenant) := by
  refine AgreeOff.trans ((s.agreeOff_upserted _ _).mono ?_)
    ((Routing.agreeOff_rebuilt st ns tenant _).mono ?_)
  · exact fun k key h => Or.inl h
  · exact fun k key h => Or.inr h

theorem calm_synced (hs : s.Calm) : (synced st s ns tenant).Calm :=
  Routing.calm_rebuilt st ns tenant (hs.upserted_of_fits Bundle.fits_mergeInto)

theorem settled_synced (s : Store) : Settled st (synced st s ns tenant) ns tenant := by
  refine ⟨?_, Routing.current_rebuilt ..⟩
  have ha := Routing.agreeOff_rebuilt st ns tenant (s.upserted (Bundle.tenantKey ns tenant)
    (Bundle.mergeInto (Bundle.candidates (s.resolved ns tenant))))
  rw [synced, Bundle.Synced, ha.resolved_eq (by simp) (by simp), ha _ _ (by simp)]
  exact Bundle.synced_upserted ns tenant s

theorem synced_of_settled (h : Settled st s ns tenant) : synced st s ns tenant = s := by
  rw [synced, upserted_of_none h.1]
  exact Routing.rebuilt_of_current st ns tenant h.2

theorem find?_tenant_synced (s : Store) (key : Key) :
    (synced st s ns tenant).find? .tenant key = s.find? .tenant key :=
  agreeOff_synced st ns tenant s _ _ (by simp [Bundle.Shared])

theorem run_syncTenant (hs : s.Calm) :
    (syncTenant st ns tenant).run s =
      (discardIfTenantGone ns tenant >>= fun gone => pure !gone).run (synced st s ns tenant) := by
  rw [syncTenant, run_bind_of_ok (hs.run_resolveForTenant ns tenant),
    run_bind_of_ok (Bundle.run_sync st ns tenant hs _), run_bind_of_ok (Routing.run_rebuild ..)]
  · rfl
  · exact hs.upserted_of_fits Bundle.fits_mergeInto

theorem run_syncTenant_alive (hs : s.Calm) (ht : (s.find? .tenant (.inSpace ns tenant)).isSome) :
    (syncTenant st ns tenant).run s = (.ok true, synced st s ns tenant) := by
  rw [run_syncTenant st ns tenant hs]
  rw [← find?_tenant_synced st ns tenant s] at ht
  exact Rests.bind (run_discardIfTenantGone_alive ns tenant (calm_synced st ns tenant hs) ht) rfl

/-- The store after a sync, whether the tenant exists or not. -/
def afterSync (s : Store) (ns tenant : String) : Store :=
  if (s.find? .tenant (.inSpace ns tenant)).isSome then synced st s ns tenant
  else ((synced st s ns tenant).remove .configMap (Bundle.tenantKey ns tenant)).remove .ingress
    (Routing.tableKey ns tenant)

theorem run_syncTenant_afterSync (hs : s.Calm) :
    ∃ b, (syncTenant st ns tenant).run s = (.ok b, afterSync st s ns tenant) := by
  unfold afterSync
  split
  · rename_i h
    exact ⟨_, run_syncTenant_alive st ns tenant hs h⟩
  · rename_i h
    rw [Option.not_isSome_iff_eq_none, ← find?_tenant_synced st ns tenant s] at h
    refine ⟨false, ?_⟩
    rw [run_syncTenant st ns tenant hs,
      run_bind_of_ok (run_discardIfTenantGone_gone ns tenant (calm_synced st ns tenant hs) h)]
    rfl

theorem calm_afterSync (hs : s.Calm) : (afterSync st s ns tenant).Calm := by
  unfold afterSync
  split
  · exact calm_synced st ns tenant hs
  · exact ((calm_synced st ns tenant hs).remove _ _).remove _ _

theorem agreeOff_afterSync (s : Store) :
    AgreeOff (Bundle.Shared ns tenant) s (afterSync st s ns tenant) := by
  have ha := agreeOff_synced st ns tenant s
  unfold afterSync
  split
  · exact ha
  · refine ha.trans (AgreeOff.trans ((agreeOff_remove _ _ _).mono ?_)
      ((agreeOff_remove _ _ _).mono ?_))
    · exact fun k key h => Or.inl h
    · exact fun k key h => Or.inr h

end run

def told (s : Store) (key : Key) : Option String :=
  ((s.find? .deployment key).bind tenantOf).or ((s.find? .service key).bind tenantOf)

/-- One of the two reads is struck, or the children are asked; the Service is read only if no
Deployment tells the tenant. -/
theorem run_pairingTenant_cases (s : Store) (key : Key) :
    (∃ k e s', (k = .deployment ∨ k = .service ∧ (s.find? .deployment key).bind tenantOf = none) ∧
      s.Struck k .get e s' ∧ (pairingTenant key).run s = (.error e, s')) ∨
    (pairingTenant key).run s = (.ok (told s key), s) := by
  unfold pairingTenant
  rcases run_get_bind_cases s .deployment key _ with ⟨e, s', hs, h⟩ | ⟨-, h⟩ <;> rw [h]
  · exact Or.inl ⟨_, e, s', Or.inl rfl, hs, rfl⟩
  unfold told
  cases hd : (s.find? .deployment key).bind tenantOf with
  | some t => exact Or.inr rfl
  | none =>
    rcases run_get_bind_cases s .service key _ with ⟨e, s', hs, h⟩ | ⟨-, h⟩ <;> rw [h]
    · exact Or.inl ⟨_, e, s', Or.inr ⟨rfl, rfl⟩, hs, rfl⟩
    · exact Or.inr rfl

theorem rests_pairingTenant {s : Store} (hs : s.Calm) (key : Key) :
    (pairingTenant key).Rests s (told s key) := by
  rcases run_pairingTenant_cases s key with ⟨k, e, s', -, hstruck, -⟩ | h
  · exact absurd hstruck.faultDue (hs.not_faultDue k .get)
  · exact h

/-- What clearing a pairing takes beside the bundle and the routing table. -/
def Children (ns name : String) (k : Kind) (key : Key) : Prop :=
  (k = .deployment ∨ k = .service) ∧ key = .inSpace ns name

section clear
variable (st : Settings) {s : Store} (ns name tenant : String)

def cleared (s : Store) : Store :=
  ((afterSync st s ns tenant).remove .deployment (.inSpace ns name)).remove .service
    (.inSpace ns name)

theorem run_clearPairing (hs : s.Calm) :
    (clearPairing st ns name tenant).run s = (.ok (), cleared st ns name tenant s) := by
  obtain ⟨b, h⟩ := run_syncTenant_afterSync st ns tenant hs
  have hs₁ := calm_afterSync st ns tenant hs
  rw [clearPairing, run_bind_of_ok h, run_bind_of_ok (hs₁.run_delete ..),
    run_bind_of_ok ((hs₁.remove ..).run_delete ..), run_pure, cleared]

theorem calm_cleared (hs : s.Calm) : (cleared st ns name tenant s).Calm :=
  ((calm_afterSync st ns tenant hs).remove _ _).remove _ _

theorem agreeOff_children_cleared (s : Store) :
    AgreeOff (Children ns name) (afterSync st s ns tenant) (cleared st ns name tenant s) :=
  ((agreeOff_remove _ _ _).mono fun _ _ h => ⟨Or.inl h.1, h.2⟩).trans
    ((agreeOff_remove _ _ _).mono fun _ _ h => ⟨Or.inr h.1, h.2⟩)

theorem agreeOff_cleared (s : Store) :
    AgreeOff (fun k key => Bundle.Shared ns tenant k key ∨ Children ns name k key) s
      (cleared st ns name tenant s) :=
  ((agreeOff_afterSync st ns tenant s).mono fun _ _ => Or.inl).trans
    ((agreeOff_children_cleared st ns name tenant s).mono fun _ _ => Or.inr)

theorem settled_of_children {x : Store}
    (h : AgreeOff (Children ns name) (synced st s ns tenant) x) : Settled st x ns tenant := by
  refine (settled_synced st ns tenant s).congr st ns tenant
    (h.resolved_eq (by simp [Children]) (by simp [Children])) fun k key hk => h k key ?_
  rcases hk with ⟨rfl, rfl⟩ | ⟨rfl, rfl⟩ <;> simp [Children]

theorem settled_cleared (ht : (s.find? .tenant (.inSpace ns tenant)).isSome) :
    Settled st (cleared st ns name tenant s) ns tenant := by
  have hoff := agreeOff_children_cleared st ns name tenant s
  rw [afterSync, if_pos ht] at hoff
  exact settled_of_children st ns name tenant hoff

theorem find?_cleared {k : Kind} (hk : k = .deployment ∨ k = .service) :
    (cleared st ns name tenant s).find? k (.inSpace ns name) = none := by
  rcases hk with rfl | rfl
  · rw [cleared, find?_remove_of_ne _ (by simp), find?_remove_self]
  · exact find?_remove_self ..

theorem told_cleared : told (cleared st ns name tenant s) (.inSpace ns name) = none := by
  rw [told, find?_cleared st ns name tenant (Or.inl rfl),
    find?_cleared st ns name tenant (Or.inr rfl)]
  rfl

/-- The tenant of a pairing that is gone is the one that its children tell. -/
theorem run_pairing_none (hs : s.Calm) :
    (Teardown.pairing st ns name none).run s =
      (.ok (), (told s (.inSpace ns name)).elim s fun t => cleared st ns name t s) := by
  rw [Teardown.pairing, run_bind_of_ok (rests_pairingTenant hs _)]
  cases told s (.inSpace ns name) with
  | none => rfl
  | some t => exact run_clearPairing st ns name t hs

end clear

/-- What clearing the listed pairings may change. -/
def Swept (ns : String) (ps : List Pairing) (k : Kind) (key : Key) : Prop :=
  ∃ p ∈ ps, Bundle.Shared ns p.content.tenantId k key ∨ Children ns p.name k key ∨
    (k = .pairing ∧ key = .inSpace ns p.name)

theorem run_clearAll (st : Settings) (ns : String) (ps : List Pairing) {s : Store} (hs : s.Calm) :
    ∃ s', (clearAll st ns ps).run s = (.ok (), s') ∧ s'.Calm ∧ AgreeOff (Swept ns ps) s s' ∧
      ∀ p ∈ ps, ∀ k, k = .pairing ∨ k = .deployment ∨ k = .service →
        s'.find? k (.inSpace ns p.name) = none := by
  induction ps generalizing s with
  | nil => exact ⟨s, rfl, hs, .refl _ s, by simp⟩
  | cons p ps ih =>
    have hc₁ := hs.remove .pairing (.inSpace ns p.name)
    have h₂ := run_clearPairing st ns p.name p.content.tenantId hc₁
    have hc₂ := calm_cleared st ns p.name p.content.tenantId hc₁
    have ha₂ := agreeOff_cleared st ns p.name p.content.tenantId
      (s.remove .pairing (.inSpace ns p.name))
    have hchild (k : Kind) (hk : k = .deployment ∨ k = .service) :=
      find?_cleared st ns p.name p.content.tenantId (s := s.remove .pairing (.inSpace ns p.name)) hk
    generalize cleared st ns p.name p.content.tenantId _ = s₂ at h₂ hc₂ ha₂ hchild
    obtain ⟨s₃, h₃, hc₃, ha₃, hgone⟩ := ih hc₂
    have hp : s₂.find? .pairing (.inSpace ns p.name) = none := by
      rw [ha₂ _ _ (by simp [Bundle.Shared, Children]), find?_remove_self]
    refine ⟨s₃, ?_, hc₃, ?_, ?_⟩
    · rw [clearAll, run_bind_of_ok (hs.run_delete ..)]
      exact (run_bind_of_ok h₂).trans h₃
    · refine ((agreeOff_remove _ _ _).mono ?_).trans ((ha₂.mono ?_).trans (ha₃.mono ?_))
      · exact fun k key h => ⟨p, by simp, Or.inr (Or.inr h)⟩
      · exact fun k key h => ⟨p, by simp, h.elim Or.inl fun h => Or.inr (Or.inl h)⟩
      · rintro k key ⟨q, hq, h⟩
        exact ⟨q, by simp [hq], h⟩
    · -- A name that comes again is cleared by the rest; any other slot stays as it is.
      intro q hq k hk
      by_cases hr : ∃ r ∈ ps, r.name = q.name
      · obtain ⟨r, hr, hn⟩ := hr
        rw [← hn]
        exact hgone r hr k hk
      · obtain rfl : q = p := by
          rcases List.mem_cons.1 hq with h | h
          · exact h
          · exact absurd ⟨q, h, rfl⟩ hr
        rw [ha₃ k _ ?_]
        · rcases hk with rfl | hk
          · exact hp
          · exact hchild k hk
        · rintro ⟨r, hm, h | h | h⟩
          · rcases hk with rfl | rfl | rfl <;> simp [Bundle.Shared] at h
          · exact hr ⟨r, hm, (Key.inSpace_inj.1 h.2).2.symm⟩
          · exact hr ⟨r, hm, (Key.inSpace_inj.1 h.2).2.symm⟩

end Teardown
end TenantOperator
