import TenantOperator.Proofs.Interleaving.Atomic
import TenantOperator.Proofs.Tenancy.Entries
import TenantOperator.Proofs.Tenancy.Routing
import TenantOperator.Proofs.Tenancy.Steps

/-! Syncs of a tenant and reconciles of its pairings among others, while the tenant is alive. The
bundle of the tenant is written once in each of them: a sync writes what it found in use when it
began, and a pairing's reconcile writes the area that it read last. -/
namespace TenantOperator
open Program Store

variable {R G T : Store → Store → Prop} (st : Settings) {s : Store} {ns tenant : String}

theorem Routing.within_rebuild (ns tenant : String) :
    (rebuild st ns tenant).Within fun k key => k = .ingress ∧ key = tableKey ns tenant := by
  refine every_rebuild st ns tenant (fun c hc k key hw => absurd hw (hc k key)) ?_ fun r hr =>
    Call.writes_puts hr
  exact (within_delete _ _).1

theorem Bundle.within_sync (ns tenant : String) (ps : List ResolvedPairing) :
    (sync st ns tenant ps).Within fun k key => k = .configMap ∧ key = tenantKey ns tenant :=
  every_sync st ns tenant (fun k key k' key' hw => absurd hw (Call.reads_get k key k' key'))
    (fun _ hr => Call.writes_puts hr) ps

theorem Bundle.within_applyEntry (ns tenant area : String) (c : Configuration) :
    (applyEntry st ns tenant area c).Within fun k key =>
      k = .configMap ∧ key = tenantKey ns tenant :=
  every_applyEntry st ns tenant (fun k key k' key' hw => absurd hw (Call.reads_get k key k' key'))
    (fun _ hr => Call.writes_puts hr) area c

namespace Teardown

theorem within_discardIfTenantGone (ns tenant : String) :
    (discardIfTenantGone ns tenant).Within (Bundle.Shared ns tenant) := by
  refine every_bind (within_read (Call.reads_get _ _)) fun t => ?_
  cases t with
  | some t => trivial
  | none =>
    have hbundle := within_delete .configMap (Bundle.tenantKey ns tenant)
    have htable := within_delete .ingress (Routing.tableKey ns tenant)
    refine every_bind (every_bind (hbundle.imp fun _ _ => Or.inl) fun b => ?_) fun _ =>
      every_bind (every_bind (htable.imp fun _ _ => Or.inr) fun b => ?_) fun _ => trivial
    · cases b <;> trivial
    · cases b <;> trivial

theorem within_syncTenant (ns tenant : String) :
    (syncTenant st ns tenant).Within (Bundle.Shared ns tenant) := by
  refine every_bind (within_of_reads (reads_resolveForTenant ns tenant)) fun ps => ?_
  refine every_bind ((Bundle.within_sync st ns tenant ps).imp fun _ _ => Or.inl) fun _ => ?_
  refine every_bind ((Routing.within_rebuild st ns tenant).imp fun _ _ => Or.inr) fun _ => ?_
  exact every_bind (within_discardIfTenantGone ns tenant) fun _ => trivial

theorem waits_discardIfTenantGone_alive (h : Around R G T)
    (halive : ∀ s', T s s' → (s'.find? .tenant (.inSpace ns tenant)).isSome) :
    (discardIfTenantGone ns tenant).Waits R G (fun gone s' => gone = false ∧ T s s') s := by
  refine waits_bind (Q := fun t s' => t.isSome ∧ T s s') ?_ ?_
  · refine waits_of_acts h.rely fun s' _ hr => acts_get (h.faults s') ⟨halive s' (h.others hr), ?_⟩
    exact h.others hr
  · rintro t s' - ⟨ht, hT⟩
    cases t with
    | none => cases ht
    | some t => exact waits_pure ⟨rfl, hT⟩

/-- A sync writes the areas that it found in use to the bundle, whenever it comes to do so. -/
theorem acts_syncTenant (h : Around R G T) (hs : s.Sound)
    (hm : ∀ s', T s s' → ∀ id,
      s'.find? .microservice (.inSpace ns id) = s.find? .microservice (.inSpace ns id))
    (halive : ∀ s', T s s' → (s'.find? .tenant (.inSpace ns tenant)).isSome)
    (hG : ∀ s s', AgreeOff (fun k key => k = .ingress ∧ key = Routing.tableKey ns tenant) s s' →
      G s s')
    {Q : Store → Prop} (hkeep : ∀ s₁ s₂, T s₁ s₂ → Q s₁ → Q s₂)
    (hsync : ∀ s', T s s' →
      let synced := s'.upserted (Bundle.tenantKey ns tenant)
        (Bundle.mergeInto (Bundle.candidates (s.resolved ns tenant)))
      G s' synced ∧ Q synced) :
    (syncTenant st ns tenant).Acts R G (fun alive s' => alive = true ∧ Q s') s := by
  refine acts_bind h.rely (acts_resolveForTenant h.rely h.faults tenant fun s' hr =>
    hm s' (h.others hr)) ?_
  rintro ps s₁ hc₁ ⟨rfl, -⟩
  have hT₁ := h.course hc₁
  refine waits_bind (Q := fun _ => Q) ?_ fun _ s₂ hc₂ hQ₂ => ?_
  · refine waits_upsert h.rely h.faults (hc₁.leads.sound hs) ?_ _ fun s' _ hr => ?_
    · exact fun current r hcur hr => Bundle.key_of_mergeInto hcur hr
    · exact hsync s' (h.total.trans hT₁ (h.others hr))
  have hT₂ := h.total.trans hT₁ (h.course hc₂)
  have hs₂ := (hc₁.trans hc₂).leads.sound hs
  refine waits_bind ((Routing.within_rebuild st ns tenant).waits hs₂ hG) fun _ s₃ hc₃ _ => ?_
  have hT₃ := h.total.trans hT₂ (h.course hc₃)
  refine waits_bind (waits_discardIfTenantGone_alive h fun s' hT => ?_) ?_
  · exact halive s' (h.total.trans hT₃ hT)
  · rintro gone s₄ hc₄ ⟨rfl, -⟩
    exact waits_pure ⟨rfl, hkeep _ _ (h.course (hc₃.trans hc₄)) hQ₂⟩

end Teardown

namespace Workload

theorem within_parent {W : Kind → Key → Prop} (k : Kind) (key : Key) (e : Error) :
    (parent k key e).Within W :=
  within_of_reads (reads_parent k key e)

theorem within_ensureCreated {k : Kind} (r : Resource k) :
    (ensureCreated r).Within fun k' key => k' = k ∧ key = r.key := by
  refine every_ensureCreated fun k' key hw => ?_
  rcases hw with ⟨rfl, rfl⟩ | h
  · exact ⟨rfl, rfl⟩
  · cases h

def Child (k : Kind) (_ : Key) : Prop := k = .service ∨ k = .deployment

theorem within_synthesize (p : Pairing) : (synthesize p).Within Child := by
  unfold synthesize
  split
  · trivial
  · refine every_bind (within_read (Call.reads_get _ _)) fun d => ?_
    cases d with
    | some d => trivial
    | none =>
      refine every_bind (within_parent ..) fun t => every_bind (within_parent ..) fun m =>
        every_bind (within_parent ..) fun i => ?_
      refine every_bind ((within_ensureCreated _).imp fun k key h => Or.inl h.1) fun _ => ?_
      exact every_bind ((within_ensureCreated _).imp fun k key h => Or.inr h.1) fun _ => trivial

theorem waits_parent (h : Around R G T) {k : Kind} {key : Key} {e : Error} :
    (parent k key e).Waits R G (fun r s' => s'.find? k key = some r ∧ T s s') s := by
  refine waits_bind (Q := fun r s' => r = s'.find? k key ∧ T s s') ?_ ?_
  · exact waits_of_acts h.rely fun s' _ hr => acts_get (h.faults s') ⟨rfl, h.others hr⟩
  · rintro r s' - ⟨hr, hT⟩
    cases r with
    | none => exact waits_fail e
    | some r => exact waits_pure ⟨hr.symm, hT⟩

end Workload

namespace Reconcile

theorem within_publish (ns tenant area : String) (c : Configuration) :
    (publish st ns tenant area c).Within (Bundle.Shared ns tenant) := by
  refine every_bind ((Bundle.within_applyEntry st ..).imp fun _ _ => Or.inl) fun _ => ?_
  refine every_bind ((Routing.within_rebuild st ..).imp fun _ _ => Or.inr) fun _ => ?_
  exact Teardown.within_discardIfTenantGone ..

theorem within_announce (ns : String) (p : Pairing) :
    (announce st ns p).Within (Bundle.Shared ns p.content.tenantId) := by
  refine every_bind (Workload.within_parent ..) fun m =>
    every_bind (within_publish ..) fun gone => ?_
  cases gone <;> trivial

theorem within_live (ns : String) (p : Pairing) :
    (live st ns p).Within fun k key =>
      Workload.Child k key ∨ Bundle.Shared ns p.content.tenantId k key := by
  rw [live_eq]
  exact every_bind (every_ofExcept _) fun _ => every_bind (Workload.within_parent ..) fun _ =>
    every_bind ((Workload.within_synthesize p).imp fun _ _ => Or.inl) fun _ =>
      (within_announce st ns p).imp fun _ _ => Or.inr

theorem acts_pairing_live (h : Around R G T) (hs : s.Sound) {key : Key} {p : Pairing}
    (hp : s.find? .pairing key = some p)
    (halive : ∀ s', T s s' → (s'.find? .tenant (.inSpace ns p.content.tenantId)).isSome)
    (hG : ∀ s s', AgreeOff (fun k _ => k = .service ∨ k = .deployment ∨ k = .ingress) s s' →
      G s s')
    {Q : Store → Prop} (hkeep : ∀ s₁ s₂, T s₁ s₂ → Q s₁ → Q s₂)
    (hentry : ∀ s₁ m s', T s s₁ → T s₁ s' →
      s₁.find? .microservice (.inSpace ns p.content.microserviceId) = some m →
      let entered := s'.upserted (Bundle.tenantKey ns p.content.tenantId)
        (Bundle.setEntry (Bundle.tenantKey ns p.content.tenantId) m.content.functionalArea
          (Configuration.entry p.content.configuration))
      G s' entered ∧ Q entered) :
    (Reconcile.pairing st ns key).Acts R G (fun o s' => o = .converged ∧ Q s') s := by
  rw [pairing_eq]
  refine acts_bind h.rely (Q := fun r _ => r = some p) (acts_get (h.faults s) hp) ?_
  rintro _ s₁ hc₁ rfl
  refine waits_bind (Q := fun _ _ => True) ?_ fun _ s₂ hc₂ _ => ?_
  · cases p.content.validate <;> trivial
  refine waits_bind (Workload.waits_parent h) fun t s₃ hc₃ _ => ?_
  have hc := hc₁.trans (hc₂.trans hc₃)
  refine waits_bind ((Workload.within_synthesize p).waits (hc.leads.sound hs) fun s s' ha => ?_)
    fun _ s₄ hc₄ _ => ?_
  · exact hG s s' (ha.mono fun k key hk => hk.imp id Or.inl)
  refine waits_bind (Workload.waits_parent h) ?_
  rintro m s₅ hc₅ ⟨hm, -⟩
  have hc := hc.trans (hc₄.trans hc₅)
  have hT₅ := h.course hc
  refine waits_bind (Q := fun _ => Q) ?_ fun _ s₆ hc₆ hQ₆ => ?_
  · refine waits_upsert h.rely h.faults (hc.leads.sound hs) ?_ _ fun s' _ hr => ?_
    · exact fun current r hcur hr => Bundle.key_of_setEntry hcur hr
    · exact hentry s₅ m s' hT₅ (h.others hr) hm
  have hc := hc.trans hc₆
  have hrebuild := (Routing.within_rebuild st ns p.content.tenantId).waits (R := R)
    (hc.leads.sound hs) fun s s' ha => hG s s' (ha.mono fun k key hk => Or.inr (Or.inr hk.1))
  refine waits_bind hrebuild fun _ s₇ hc₇ _ => ?_
  have hT₇ := h.course (hc.trans hc₇)
  refine waits_bind (Teardown.waits_discardIfTenantGone_alive h fun s' hT => ?_) ?_
  · exact halive s' (h.total.trans hT₇ hT)
  · rintro gone s₈ hc₈ ⟨rfl, -⟩
    exact waits_pure ⟨rfl, hkeep _ _ (h.course (hc₇.trans hc₈)) hQ₆⟩

end Reconcile
end TenantOperator
