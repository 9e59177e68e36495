import TenantOperator.Proofs.Quiescence.Backlog
import TenantOperator.Proofs.Quiescence.Growth
import TenantOperator.Proofs.Tenancy.Steps

/-! Convergence once no request is pending. The request of a new pairing is processed once, and if
its instance exists by then, all that derives from the pairing is made and stays; if not, the
request is dropped, and nothing brings it back. -/
namespace TenantOperator
open Program Store

/-- All that derives from a pairing is in place. -/
structure Store.Serves (inst : String) (key : Key) (p : Pairing) (s : Store) : Prop where
  deployment : (s.find? .deployment key).isSome
  service : (s.find? .service key).isSome
  published : ∃ m, s.find? .microservice (.inSpace inst p.content.microserviceId) = some m ∧
    (Bundle.entries s inst p.content.tenantId).contains m.content.functionalArea ∧
      Naming.routingPath inst p.content.tenantId m.content.functionalArea ∈
        Routing.paths s inst p.content.tenantId

namespace Store
variable {inst : String} {s s' : Store} {key : Key} {p : Pairing}

theorem Intact.mem_areas (hs : s.Intact inst) (hp : s.find? .pairing key = some p)
    {m : Microservice}
    (hm : s.find? .microservice (.inSpace inst p.content.microserviceId) = some m) :
    m.content.functionalArea ∈ s.areas inst p.content.tenantId := by
  obtain ⟨hshape, hns, -⟩ := hs.pairings key p hp
  have hl := hshape.satisfies_iff.2 rfl
  exact Store.mem_areas.2 ⟨p, mem_select_of_find? hp hns hl, m, hm, rfl⟩

theorem Serves.grown (h : s.Serves inst key p) (hs : s.Intact inst)
    (hp : s.find? .pairing key = some p) (hg : Grown inst s s') : s'.Serves inst key p := by
  obtain ⟨m, hm, hentry, hpath⟩ := h.published
  have harea := hs.mem_areas hp hm
  exact
    { deployment := hg.isSome h.deployment
      service := hg.isSome h.service
      published := ⟨m, hg.kept _ _ m (by simp) (by simp) hm, hg.entries _ _ harea hentry,
        hg.paths _ _ harea hpath⟩ }

theorem Intact.key_eq (hs : s.Intact inst) (hp : s.find? .pairing key = some p) :
    key = .inSpace inst p.name ∧
      p.name = Naming.pairing p.content.tenantId p.content.microserviceId := by
  obtain ⟨hshape, hns, -⟩ := hs.pairings key p hp
  have hkey : p.key = key := hs.calm.filed hp
  refine ⟨?_, Resource.name_eq hshape.name⟩
  rw [← hkey] at hns ⊢
  exact congrArg (Key.mk p.name) hns

end Store

section pairing
variable {inst : String} {s : Store} {key : Key} {p : Pairing}

theorem Workload.run_parent_none {k : Kind} {key : Key} {e : Error} (hs : s.Calm)
    (h : s.find? k key = none) : (parent k key e).run s = (.error e, s) := by
  rw [parent, run_bind_of_ok (hs.run_get key), h]
  rfl

theorem Workload.run_synthesize_intact (hs : s.Intact inst)
    (hp : s.find? .pairing key = some p) :
    (s.find? .inst (.clusterWide inst) = none ∧ ∃ e, (synthesize p).run s = (.error e, s)) ∨
      ∃ x s₁, (synthesize p).run s = (.ok x, s₁) ∧ Grown inst s s₁ ∧
        (s₁.find? .deployment key).isSome := by
  obtain ⟨hkey, hname⟩ := hs.key_eq hp
  obtain ⟨-, -, ht, hm⟩ := hs.pairings key p hp
  obtain ⟨t, ht⟩ := Option.isSome_iff_exists.1 ht
  obtain ⟨m, hm⟩ := Option.isSome_iff_exists.1 hm
  have hns : p.metadata.ns = some inst := by
    have hfiled : p.key = key := hs.calm.filed hp
    rw [hkey] at hfiled
    exact congrArg Key.ns hfiled
  simp only [synthesize, hns]
  rw [run_bind_of_ok (hs.calm.run_get _)]
  cases hd : s.find? .deployment (.inSpace inst p.name) with
  | some d => exact Or.inr ⟨.existing, s, rfl, .refl inst s, by rw [hkey, hd]; rfl⟩
  | none =>
    dsimp only
    rw [run_bind_of_ok (rests_parent hs.calm ht), run_bind_of_ok (rests_parent hs.calm hm)]
    cases hi : s.find? .inst (.clusterWide inst) with
    | none =>
      refine Or.inl ⟨rfl, missingInstance p.name inst, ?_⟩
      rw [run_bind, run_parent_none hs.calm hi]
    | some i =>
      right
      rw [run_bind_of_ok (rests_parent hs.calm hi)]
      -- Both children have the name of the pairing.
      have hiname : i.name = inst := congrArg Key.name (hs.calm.filed hi)
      have htname : t.name = p.content.tenantId := congrArg Key.name (hs.calm.filed ht)
      have hmname : m.name = p.content.microserviceId := congrArg Key.name (hs.calm.filed hm)
      have hchild : Key.inSpace i.name (Naming.pairing t.name m.name) = key := by
        rw [hiname, htname, hmname, ← hname, ← hkey]
      have hservice : Grown inst s (s.ensured (service i t m)) := .ensured trivial
      have hdeployment : Grown inst (s.ensured (service i t m))
          ((s.ensured (service i t m)).ensured (deployment i t m)) :=
        .ensured (isSome_find?_ensured s (service i t m))
      have hs₁ := hservice.intact hs
      refine ⟨.created, (s.ensured (service i t m)).ensured (deployment i t m), ?_,
        hservice.trans hdeployment, ?_⟩
      · rw [run_bind_of_ok (hs.calm.run_ensureCreated (n := Naming.pairing t.name m.name) rfl),
          run_bind_of_ok (hs₁.calm.run_ensureCreated (n := Naming.pairing t.name m.name) rfl)]
        rfl
      · rw [← hchild]
        exact isSome_find?_ensured _ (deployment i t m)

theorem Store.Intact.validate (hs : s.Intact inst) (hp : s.find? .pairing key = some p) :
    p.content.validate = .ok () := by
  obtain ⟨-, -, ht, hm⟩ := hs.pairings key p hp
  obtain ⟨t, ht⟩ := Option.isSome_iff_exists.1 ht
  obtain ⟨m, hm⟩ := Option.isSome_iff_exists.1 hm
  have htenant : p.content.tenantId ≠ "" := (hs.tenants _ t ht).2
  have hmicroservice : p.content.microserviceId ≠ "" := (hs.microservices _ m hm).2
  simp [PairingSpec.validate, htenant, hmicroservice]

/-- Entry and path of a pairing are made, and nothing is lost. -/
theorem Reconcile.run_publish (st : Settings) (hs : s.Intact inst)
    (hp : s.find? .pairing key = some p) {m : Microservice}
    (hm : s.find? .microservice (.inSpace inst p.content.microserviceId) = some m) :
    ∃ s', (publish st inst p.content.tenantId m.content.functionalArea
        p.content.configuration).run s = (.ok false, s') ∧ Grown inst s s' ∧
      (Bundle.entries s' inst p.content.tenantId).contains m.content.functionalArea ∧
        Naming.routingPath inst p.content.tenantId m.content.functionalArea ∈
          Routing.paths s' inst p.content.tenantId := by
  obtain ⟨-, -, ht, -⟩ := hs.pairings key p hp
  have hrun₁ := Bundle.run_applyEntry st inst p.content.tenantId hs.calm m.content.functionalArea
    p.content.configuration
  have hentry : (Bundle.entries (s.upserted (Bundle.tenantKey inst p.content.tenantId)
      (Bundle.setEntry (Bundle.tenantKey inst p.content.tenantId) m.content.functionalArea
        (Configuration.entry p.content.configuration))) inst p.content.tenantId).contains
      m.content.functionalArea := Bundle.contains_entries_setEntry.2 (Or.inl rfl)
  have hg₁ : Grown inst s (s.upserted (Bundle.tenantKey inst p.content.tenantId)
      (Bundle.setEntry (Bundle.tenantKey inst p.content.tenantId) m.content.functionalArea
        (Configuration.entry p.content.configuration))) :=
    .of_bundle (fun hs => hs.upserted_of_fits Bundle.fits_setEntry)
      fun area _ hc => Bundle.contains_entries_setEntry.2 (Or.inr hc)
  generalize s.upserted (Bundle.tenantKey inst p.content.tenantId) _ = s₁ at hrun₁ hentry hg₁
  have hs₁ := hg₁.intact hs
  have hrun₂ := Routing.run_rebuild st inst p.content.tenantId hs₁.calm
  have hcurrent := Routing.current_rebuilt st inst p.content.tenantId s₁
  have hg₂ : Grown inst s₁ (Routing.rebuilt st s₁ inst p.content.tenantId) := .rebuilt st s₁ _
  generalize Routing.rebuilt st s₁ inst p.content.tenantId = s₂ at hrun₂ hcurrent hg₂
  have hg := hg₁.trans hg₂
  have hs₂ := hg.intact hs
  have harea₁ := hg₁.areas (hs.mem_areas hp hm)
  refine ⟨s₂, ?_, hg, hg₂.entries _ _ harea₁ hentry, ?_⟩
  · rw [publish, run_bind_of_ok hrun₁, run_bind_of_ok hrun₂]
    exact Teardown.run_discardIfTenantGone_alive inst _ hs₂.calm (hg.isSome ht)
  · obtain ⟨q, hq, hqa⟩ := List.mem_map.1 (hg₂.areas harea₁)
    rw [← hqa]
    exact Routing.mem_paths_of_current hcurrent hq

/-- The reconcile of a live pairing takes nothing away however it ends, and it ends well unless the
instance is missing. -/
theorem Reconcile.run_live (st : Settings) (hs : s.Intact inst)
    (hp : s.find? .pairing key = some p) :
    Grown inst s ((live st inst p).run s).2 ∧ ((s.find? .inst (.clusterWide inst)).isSome →
      ((live st inst p).run s).1 = .ok .converged ∧
        ((live st inst p).run s).2.Serves inst key p) := by
  obtain ⟨-, -, ht, -⟩ := hs.pairings key p hp
  obtain ⟨t, ht⟩ := Option.isSome_iff_exists.1 ht
  have hvalid : (Program.ofExcept p.content.validate).run s = (.ok (), s) := by
    rw [hs.validate hp]
    rfl
  rw [live, run_bind_of_ok hvalid, run_bind_of_ok (Workload.rests_parent hs.calm ht)]
  rcases Workload.run_synthesize_intact hs hp with ⟨hi, e, he⟩ | ⟨x, s₁, hx, hg₁, hd₁⟩
  · rw [run_bind, he]
    exact ⟨.refl inst s, fun h => by rw [hi] at h; cases h⟩
  · have hs₁ := hg₁.intact hs
    have hp₁ := hg₁.kept _ _ p (by simp) (by simp) hp
    obtain ⟨-, -, -, hm₁⟩ := hs₁.pairings key p hp₁
    obtain ⟨m, hm₁⟩ := Option.isSome_iff_exists.1 hm₁
    obtain ⟨s₂, hrun, hg₂, hentry, hpath⟩ := run_publish st hs₁ hp₁ hm₁
    have hlast : (publish st inst p.content.tenantId m.content.functionalArea
        p.content.configuration >>= fun gone =>
          if gone then pure Outcome.tornDown else pure .converged).run s₁ =
        (.ok .converged, s₂) := by
      rw [run_bind_of_ok hrun]
      rfl
    simp only [publish, Program.bind_assoc] at hlast
    rw [run_bind_of_ok hx, run_bind_of_ok (Workload.rests_parent hs₁.calm hm₁), hlast]
    have hd₂ := hg₂.isSome hd₁
    have hm₂ := hg₂.kept _ _ m (by simp) (by simp) hm₁
    exact ⟨hg₁.trans hg₂, fun _ => ⟨rfl, hd₂, (hg₂.intact hs₁).children key hd₂, m, hm₂, hentry,
      hpath⟩⟩

end pairing

end TenantOperator
