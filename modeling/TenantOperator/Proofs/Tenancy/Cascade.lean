import TenantOperator.Proofs.Tenancy.Matrix
import TenantOperator.Tenancy.Reconcile

/-! Deleting a tenant or a microservice clears its pairings one after the other. What a tenant owns
is gone afterwards, and nothing else is touched. -/
namespace TenantOperator
namespace Teardown
open Program Store

section run
variable {s : Store} (st : Settings) (ns tenant : String)

/-- Pairings that a selector finds are cleared, and it finds none of them again. -/
theorem run_pairings (hs : s.Calm) (selector : Labels) :
    ∃ s', (pairings st ns selector).run s = (.ok (), s') ∧ s'.Calm ∧
      AgreeOff (Swept ns (s.select .pairing (some ns) selector)) s s' ∧
      (∀ p ∈ s.select .pairing (some ns) selector, ∀ k,
        k = .pairing ∨ k = .deployment ∨ k = .service →
          s'.find? k (.inSpace ns p.name) = none) ∧
      s'.select .pairing (some ns) selector = [] := by
  obtain ⟨s', hr, hc, ha, hgone⟩ := run_clearAll st ns (s.select .pairing (some ns) selector) hs
  refine ⟨s', ?_, hc, ha, hgone, ?_⟩
  · rw [pairings, run_bind_of_ok (hs.run_list ..)]
    exact hr
  · refine List.eq_nil_iff_forall_not_mem.2 fun p hp => ?_
    obtain ⟨-, hf, hl⟩ := hc.filed.of_mem_space hp
    -- A pairing left over was there before, since only the swept ones changed.
    by_cases hsw : Swept ns (s.select .pairing (some ns) selector) .pairing (.inSpace ns p.name)
    · obtain ⟨q, hq, h | h | h⟩ := hsw
      · simp [Bundle.Shared] at h
      · simp [Children] at h
      · have hn : p.name = q.name := (Key.inSpace_inj.1 h.2).2
        rw [hn, hgone q hq .pairing (Or.inl rfl)] at hf
        cases hf
    · have hf' : s.find? .pairing (.inSpace ns p.name) = some p := by rw [← ha _ _ hsw, hf]
      have hm : p ∈ s.select .pairing (some ns) selector :=
        mem_select_of_find? hf' rfl hl
      exact hsw ⟨p, hm, Or.inr (Or.inr ⟨rfl, rfl⟩)⟩

theorem rests_pairings (hs : s.Calm) {selector : Labels}
    (h : s.select .pairing (some ns) selector = []) : (pairings st ns selector).Rests s () := by
  refine Rests.bind (hs.run_list ..) ?_
  rw [h]
  rfl

/-- The slots of a tenant's bundle, routing table, pairings and their children. -/
def Owned (s : Store) (ns tenant : String) (k : Kind) (key : Key) : Prop :=
  Bundle.Shared ns tenant k key ∨
    (k = .pairing ∨ k = .deployment ∨ k = .service) ∧
      ∃ p ∈ s.select .pairing (some ns) (Naming.tenantSelector tenant), key = p.key

theorem run_tenant (hs : s.Calm) :
    ∃ s', (Teardown.tenant st ns tenant).run s = (.ok (), s') ∧ s'.Calm ∧
      AgreeOff (fun k key => Bundle.Shared ns tenant k key ∨
        Swept ns (s.select .pairing (some ns) (Naming.tenantSelector tenant)) k key) s s' ∧
      (∀ k key, Owned s ns tenant k key → s'.find? k key = none) ∧
      s'.select .pairing (some ns) (Naming.tenantSelector tenant) = [] := by
  obtain ⟨s₁, hr, hc, ha, hgone, hnone⟩ := run_pairings st ns hs (Naming.tenantSelector tenant)
  have hc₁ := hc.remove .configMap (Bundle.tenantKey ns tenant)
  have hc₂ := hc₁.remove .ingress (Routing.tableKey ns tenant)
  have ha₁ := s₁.agreeOff_remove .configMap (Bundle.tenantKey ns tenant)
  have ha₂ := (s₁.remove .configMap (Bundle.tenantKey ns tenant)).agreeOff_remove .ingress
    (Routing.tableKey ns tenant)
  refine ⟨_, ?_, hc₂, ?_, ?_, ?_⟩
  · rw [Teardown.tenant, run_bind_of_ok hr, run_bind_of_ok (Bundle.run_deleteTenant ns tenant hc),
      run_bind_of_ok (Routing.run_delete ns tenant hc₁), run_pure]
  · refine (ha.mono ?_).trans ((ha₁.mono ?_).trans (ha₂.mono ?_))
    · exact fun k key h => Or.inr h
    · exact fun k key h => Or.inl (Or.inl h)
    · exact fun k key h => Or.inl (Or.inr h)
  · rintro k key ((⟨rfl, rfl⟩ | ⟨rfl, rfl⟩) | ⟨hk, p, hp, rfl⟩)
    · rw [ha₂ _ _ (by simp), find?_remove_self]
    · exact find?_remove_self ..
    · have hkey := (hs.filed.of_mem_space hp).1
      have hkinds : k ≠ .configMap ∧ k ≠ .ingress := by rcases hk with rfl | rfl | rfl <;> simp
      rw [ha₂ _ _ (by simp [hkinds]), ha₁ _ _ (by simp [hkinds]), hkey]
      exact hgone p hp k hk
  · rw [← hnone]
    exact select_congr fun key r _ => by rw [ha₂ _ _ (by simp), ha₁ _ _ (by simp)]

theorem rests_tenant (hs : s.Calm)
    (hp : s.select .pairing (some ns) (Naming.tenantSelector tenant) = [])
    (hb : s.find? .configMap (Bundle.tenantKey ns tenant) = none)
    (ht : s.find? .ingress (Routing.tableKey ns tenant) = none) :
    (Teardown.tenant st ns tenant).Rests s () := by
  have h₁ := Bundle.run_deleteTenant ns tenant hs
  have h₂ := Routing.run_delete ns tenant hs
  rw [remove_of_find?_eq_none hb] at h₁
  rw [remove_of_find?_eq_none ht] at h₂
  exact Rests.bind (rests_pairings st ns hs hp) (Rests.bind h₁ (Rests.bind h₂ rfl))

end run

theorem owned_of_swept {s : Store} {ns tenant : String} {k : Kind} {key : Key} (hs : s.Filed)
    (hp : s.Shaped)
    (h : Swept ns (s.select .pairing (some ns) (Naming.tenantSelector tenant)) k key) :
    Owned s ns tenant k key := by
  obtain ⟨p, hm, h⟩ := h
  obtain ⟨hkey, hf, hl⟩ := hs.of_mem_space hm
  rcases h with h | ⟨hk, rfl⟩ | ⟨rfl, rfl⟩
  · have ht : p.content.tenantId = tenant := (hp hf).satisfies_iff.1 hl
    exact Or.inl (ht ▸ h)
  · exact Or.inr ⟨Or.inr hk, p, hm, hkey.symm⟩
  · exact Or.inr ⟨Or.inl rfl, p, hm, hkey.symm⟩

/-- The reconcile of a tenant that is gone clears what it owned and keeps everything else. -/
theorem run_reconcile_of_tenant_gone (st : Settings) {s : Store} {ns tenant : String}
    (hs : s.Reached) (hf : s.faults = []) (hp : s.Shaped)
    (hgone : s.find? .tenant (.inSpace ns tenant) = none) :
    ∃ s', (reconcile st ⟨.tenant, .inSpace ns tenant⟩).run s = (.ok .tornDown, s') ∧
      (∀ key (p : Pairing), s'.find? .pairing key = some p → key.ns = some ns →
        p.metadata.labelMap.find? Naming.tenantLabel ≠ some tenant) ∧
      (∀ key (p : Pairing), s.find? .pairing key = some p → key.ns = some ns →
        p.metadata.labelMap.find? Naming.tenantLabel = some tenant →
          s'.find? .deployment key = none ∧ s'.find? .service key = none) ∧
      s'.find? .configMap (Bundle.tenantKey ns tenant) = none ∧
      s'.find? .ingress (Routing.tableKey ns tenant) = none ∧
      ∀ k key, ¬Owned s ns tenant k key → s'.find? k key = s.find? k key := by
  have hc : s.Calm := ⟨hs.filed, hf⟩
  obtain ⟨s', hr, hc', ha, hnone, hsel⟩ := run_tenant st ns tenant hc
  refine ⟨s', ?_, ?_, ?_, hnone _ _ (Or.inl (Or.inl ⟨rfl, rfl⟩)),
    hnone _ _ (Or.inl (Or.inr ⟨rfl, rfl⟩)), ?_⟩
  · show (Reconcile.tenant st ns (.inSpace ns tenant)).run s = _
    rw [Reconcile.tenant, run_bind_of_ok (hc.run_get _), hgone]
    exact run_bind_of_ok hr
  · intro key p hfind hns hl
    have hm : p ∈ s'.select .pairing (some ns) (Naming.tenantSelector tenant) :=
      mem_select.2 ⟨key, hfind, by simp [picks, hns, Metadata.satisfies_tenantSelector, hl]⟩
    rw [hsel] at hm
    cases hm
  · intro key p hfind hns hl
    have hm : p ∈ s.select .pairing (some ns) (Naming.tenantSelector tenant) :=
      mem_select.2 ⟨key, hfind, by simp [picks, hns, Metadata.satisfies_tenantSelector, hl]⟩
    have hkey : key = p.key := (hs.filed hfind).symm
    exact ⟨hnone _ _ (Or.inr ⟨by simp, p, hm, hkey⟩), hnone _ _ (Or.inr ⟨by simp, p, hm, hkey⟩)⟩
  · intro k key ho
    refine ha k key ?_
    rintro (h | h)
    · exact ho (Or.inl h)
    · exact ho (owned_of_swept hs.filed hp h)

/-- The pairings of `a` have their children, its bundle and its table, and `a` is deleted. -/
def orphaned : Store :=
  let founded := (((Matrix.crowded.perform (.create .tenant (Matrix.bareTenant "a"))).2.perform
    (.create .inst Matrix.bareInstance)).2)
  let served := ["b-c", "c"].foldl (fun s m =>
    ((reconcile {} ⟨.pairing, .inSpace "dc1" (Naming.pairing "a" m)⟩).run s).2) founded
  (served.perform (.delete .tenant (.inSpace "dc1" "a"))).2

theorem reached_orphaned : orphaned.Reached :=
  .call _ ((((Matrix.reached_crowded.call _).call _).run _).run _)

theorem shaped_orphaned : orphaned.Shaped := by decide +kernel

/-- All that the tenant owns is there before its reconcile and gone after it; the microservices
stay. -/
theorem run_reconcile_orphaned :
    orphaned.Reached ∧ orphaned.Shaped ∧
      (∀ m ∈ ["b-c", "c"], ∀ k ∈ [Kind.pairing, .deployment, .service],
        (orphaned.find? k (.inSpace "dc1" (Naming.pairing "a" m))).isSome) ∧
      (orphaned.find? .configMap (Bundle.tenantKey "dc1" "a")).isSome ∧
      (orphaned.find? .ingress (Routing.tableKey "dc1" "a")).isSome ∧
      ∃ s', (reconcile {} ⟨.tenant, .inSpace "dc1" "a"⟩).run orphaned = (.ok .tornDown, s') ∧
        (∀ key (p : Pairing), s'.find? .pairing key = some p → key.ns = some "dc1" →
          p.metadata.labelMap.find? Naming.tenantLabel ≠ some "a") ∧
        (∀ m ∈ ["b-c", "c"], ∀ k ∈ [Kind.deployment, .service],
          s'.find? k (.inSpace "dc1" (Naming.pairing "a" m)) = none) ∧
        s'.find? .configMap (Bundle.tenantKey "dc1" "a") = none ∧
        s'.find? .ingress (Routing.tableKey "dc1" "a") = none ∧
        ∀ m ∈ ["b-c", "c"], (s'.find? .microservice (.inSpace "dc1" m)).isSome := by
  obtain ⟨s', hr, hpairings, hchildren, hb, ht, hkept⟩ := run_reconcile_of_tenant_gone {}
    reached_orphaned rfl shaped_orphaned
    (rfl : orphaned.find? .tenant (.inSpace "dc1" "a") = none)
  refine ⟨reached_orphaned, shaped_orphaned, by decide +kernel, rfl, rfl, s', hr, hpairings, ?_, hb,
    ht, ?_⟩
  · have hfirst := hchildren (.inSpace "dc1" (Naming.pairing "a" "b-c")) _ rfl rfl rfl
    have hsecond := hchildren (.inSpace "dc1" (Naming.pairing "a" "c")) _ rfl rfl rfl
    simp only [List.forall_mem_cons]
    exact ⟨⟨hfirst.1, hfirst.2, nofun⟩, ⟨hsecond.1, hsecond.2, nofun⟩, nofun⟩
  · intro m hm
    rw [hkept .microservice _ (by simp [Owned, Bundle.Shared])]
    revert m
    decide +kernel

end Teardown
end TenantOperator
