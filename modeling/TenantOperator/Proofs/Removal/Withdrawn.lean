import TenantOperator.Proofs.Areas.Rederived
import TenantOperator.Proofs.Interruption.Sweeps

/-! Deleting a microservice. Its pairings belong to different tenants, so the loop over them comes
to each tenant once: what a living tenant shares is derived anew from the pairings that are left to
it, what a tenant that is gone shared is cleared away, and neither is touched again. -/
namespace TenantOperator
namespace Teardown
open Program Store

variable {st : Settings} {s s' : Store} {ns : String} {p : Pairing} {ps : List Pairing}

theorem Apart.symm {q : Pairing} (h : Apart p q) : Apart q p := ⟨h.1.symm, h.2.symm⟩

/-- Clearing a pairing merges the entries of its tenant's bundle with those of the pairings that are
left to the tenant. -/
theorem data_sweep (halive : (s.find? .tenant (.inSpace ns p.content.tenantId)).isSome) :
    ((sweep st ns s p).find? .configMap (Bundle.tenantKey ns p.content.tenantId)).map Bundle.data =
      (s.find? .configMap (Bundle.tenantKey ns p.content.tenantId)).map fun cm =>
        Bundle.merge (Bundle.candidates ((sweep st ns s p).resolved ns p.content.tenantId))
          (Bundle.data cm) := by
  have hoff := s.agreeOff_remove .pairing (.inSpace ns p.name)
  rw [← hoff .tenant _ (by simp)] at halive
  rw [← hoff .configMap _ (by simp), sweep]
  generalize s.remove .pairing (.inSpace ns p.name) = u at halive
  rw [agreeOff_children_cleared st ns p.name p.content.tenantId u _ _ (by simp [Children]),
    (agreeOff_cleared st ns p.name p.content.tenantId u).resolved_eq
      (by simp [Bundle.Shared, Children]) (by simp [Bundle.Shared, Children]),
    afterSync, if_pos halive, Bundle.data_synced]

theorem Listed.data (h : Listed ns s ps) (hs : s.Calm) :
    ∀ p ∈ ps, (s.find? .tenant (.inSpace ns p.content.tenantId)).isSome →
      ((sweepAll st ns ps s).find? .configMap (Bundle.tenantKey ns p.content.tenantId)).map
          Bundle.data =
        (s.find? .configMap (Bundle.tenantKey ns p.content.tenantId)).map fun cm =>
          Bundle.merge (Bundle.candidates ((sweepAll st ns ps s).resolved ns p.content.tenantId))
            (Bundle.data cm) := by
  induction ps generalizing s with
  | nil => simp
  | cons p ps ih =>
    have hs₁ : (sweep st ns s p).Calm := calm_cleared st ns _ _ (hs.remove _ _)
    obtain ⟨hapart, -⟩ := List.pairwise_cons.1 h.apart
    have hrest := (sweepAll_spec st ns ps hs₁).2.1
    have hfirst := (sweepAll_spec st ns [p] hs).2.1
    intro q hq halive
    show ((sweepAll st ns ps (sweep st ns s p)).find? _ _).map _ =
      (s.find? _ _).map fun cm => Bundle.merge (Bundle.candidates
        ((sweepAll st ns ps (sweep st ns s p)).resolved ns q.content.tenantId)) (Bundle.data cm)
    rcases List.mem_cons.1 hq with rfl | hq
    · rw [hrest _ _ (not_swept_of_apart hapart (.inl (.inl ⟨rfl, rfl⟩))),
        h.tail.resolved_sweepAll hs₁ fun r hr => (hapart r hr).2, data_sweep halive]
    · have hother : ∀ r ∈ [p], Apart q r := by simpa using (hapart q hq).symm
      have hbundle := hfirst _ _ (not_swept_of_apart hother (.inl (.inl ⟨rfl, rfl⟩)))
      have htenant := hfirst .tenant (.inSpace ns q.content.tenantId)
        (by simp [Swept, Bundle.Shared, Children])
      rw [ih h.tail hs₁ q hq (by rwa [← htenant] at halive)]
      exact congrArg _ hbundle

/-- A pairing of `s` is withdrawn: its children are gone, what its tenant shares is derived anew
from the pairings that are left to the tenant, and a tenant that is gone shares nothing. -/
structure Withdrawn (st : Settings) (s s' : Store) (ns : String) (p : Pairing) : Prop where
  deployment : s'.find? .deployment p.key = none
  service : s'.find? .service p.key = none
  alive : (s.find? .tenant (.inSpace ns p.content.tenantId)).isSome →
    ∃ ps, Reconcile.Rederived st s s' ns p.content.tenantId ps
  gone : s.find? .tenant (.inSpace ns p.content.tenantId) = none → s'.Bare ns p.content.tenantId

theorem Listed.withdrawn (st : Settings) (h : Listed ns s ps) (hs : s.Calm) (hp : p ∈ ps)
    (hkey : p.key = .inSpace ns p.name) : Withdrawn st s (sweepAll st ns ps s) ns p := by
  obtain ⟨hs', hoff, -⟩ := sweepAll_spec st ns ps hs
  have hfinished := h.finished st hs p hp
  have htenant := hoff .tenant (.inSpace ns p.content.tenantId)
    (by simp [Swept, Bundle.Shared, Children])
  refine ⟨hfinished.childless _ _ ⟨.inl rfl, hkey⟩, hfinished.childless _ _ ⟨.inr rfl, hkey⟩,
    fun halive => ?_, fun hgone => hfinished.gone (htenant.trans hgone)⟩
  have hsettled := hfinished.alive (by rwa [htenant])
  exact ⟨_, Reconcile.rederived_of_data hs' hsettled.2 (h.data hs p hp halive)⟩

/-- The reconcile of a microservice that is gone withdraws its pairings, whichever tenants they
belong to, and keeps everything else. -/
theorem withdrawn_of_microservice_gone (st : Settings) {s : Store} {ns microservice : String}
    (hs : s.Reached) (hf : s.faults = []) (hp : s.Shaped)
    (hgone : s.find? .microservice (.inSpace ns microservice) = none) :
    ∃ s', (reconcile st ⟨.microservice, .inSpace ns microservice⟩).run s = (.ok .tornDown, s') ∧
      (∀ key (p : Pairing), s'.find? .pairing key = some p → key.ns = some ns →
        p.metadata.labelMap.find? Naming.microserviceLabel ≠ some microservice) ∧
      (∀ key (p : Pairing), s.find? .pairing key = some p → key.ns = some ns →
        p.metadata.labelMap.find? Naming.microserviceLabel = some microservice →
          Withdrawn st s s' ns p) ∧
      ∀ k key,
        ¬Swept ns (s.select .pairing (some ns) (Naming.microserviceSelector microservice)) k key →
          s'.find? k key = s.find? k key := by
  have hc : s.Calm := ⟨hs.filed, hf⟩
  have hlisted := Listed.of_select hc.filed hp ns microservice
  have hrun : (pairings st ns (Naming.microserviceSelector microservice)).run s = _ :=
    run_pairings_eq st hc _
  obtain ⟨s', hrun', -, hoff, -, hnone⟩ :=
    run_pairings st ns hc (Naming.microserviceSelector microservice)
  cases hrun.symm.trans hrun'
  have hmem {s : Store} {key : Key} {p : Pairing} (hfind : s.find? .pairing key = some p)
      (hns : key.ns = some ns)
      (hl : p.metadata.labelMap.find? Naming.microserviceLabel = some microservice) :
      p ∈ s.select .pairing (some ns) (Naming.microserviceSelector microservice) :=
    mem_select_of_find? hfind hns (Metadata.satisfies_microserviceSelector.2 hl)
  refine ⟨_, ?_, fun key p hfind hns hl => ?_, fun key p hfind hns hl => ?_, hoff⟩
  · show (Reconcile.microservice st ns (.inSpace ns microservice)).run s = _
    rw [Reconcile.microservice, run_bind_of_ok (hc.rests_get hgone)]
    exact run_bind_of_ok hrun
  · have hleft := hmem hfind hns hl
    rw [hnone] at hleft
    cases hleft
  · have hsel := hmem hfind hns hl
    exact hlisted.withdrawn st hc hsel (hc.filed.of_mem_space hsel).1

section leased

def tenanted : Store :=
  [.create .inst Matrix.bareInstance, .create .microserviceTemplate Matrix.bareTemplate,
    .create .microservice (Matrix.bareMicroservice "b"),
    .create .microservice (Matrix.bareMicroservice "c"),
    .create .tenant (Matrix.bareTenant "a"), .create .tenant (Matrix.bareTenant "d")].foldl
      (fun s (c : Call) => (s.perform c).2) {}

theorem reached_tenanted : tenanted.Reached :=
  .call _ (.call _ (.call _ (.call _ (.call _ (.call _ .fresh)))))

/-- Three pairings of the two tenants are in place. -/
def leased : Store :=
  [(⟨.tenant, .inSpace "dc1" "a"⟩ : ReconcileRequest), ⟨.tenant, .inSpace "dc1" "d"⟩,
    ⟨.pairing, .inSpace "dc1" (Naming.pairing "a" "b")⟩,
    ⟨.pairing, .inSpace "dc1" (Naming.pairing "a" "c")⟩,
    ⟨.pairing, .inSpace "dc1" (Naming.pairing "d" "b")⟩].foldl
      (fun s r => ((reconcile {} r).run s).2) tenanted

def vacated : Store :=
  ((leased.perform (.delete .tenant (.inSpace "dc1" "d"))).2.perform
    (.delete .microservice (.inSpace "dc1" "b"))).2

theorem reached_vacated : vacated.Reached :=
  .call _ (.call _ (((((reached_tenanted.run _).run _).run _).run _).run _))

theorem shaped_vacated : vacated.Shaped := by decide

/-- The tenant `a` keeps its entry for `c` alone, and `d` shares nothing any more. -/
theorem withdrawn_vacated : vacated.Reached ∧ vacated.faults = [] ∧ vacated.Shaped ∧
    vacated.find? .microservice (.inSpace "dc1" "b") = none ∧
    (Bundle.entries vacated "dc1" "a").keys = ["b", "c"] ∧
    (Bundle.entries vacated "dc1" "d").keys = ["b"] ∧
    ∃ s', (reconcile {} ⟨.microservice, .inSpace "dc1" "b"⟩).run vacated = (.ok .tornDown, s') ∧
      (Bundle.entries s' "dc1" "a").keys = ["c"] ∧
      (∃ ps, Reconcile.Rederived {} vacated s' "dc1" "a" ps) ∧ s'.Bare "dc1" "d" := by
  obtain ⟨s', hrun, -, hwithdrawn, -⟩ := withdrawn_of_microservice_gone {} reached_vacated rfl
    shaped_vacated (rfl : vacated.find? .microservice (.inSpace "dc1" "b") = none)
  have hs' : ((reconcile {} ⟨.microservice, .inSpace "dc1" "b"⟩).run vacated).2 = s' :=
    congrArg Prod.snd hrun
  have ha := hwithdrawn (.inSpace "dc1" (Naming.pairing "a" "b"))
    ((Pairing.forPair "dc1" "a" "b" .empty).withVersion (some "7")) rfl rfl rfl
  have hd := hwithdrawn (.inSpace "dc1" (Naming.pairing "d" "b"))
    ((Pairing.forPair "dc1" "d" "b" .empty).withVersion (some "9")) rfl rfl rfl
  refine ⟨reached_vacated, rfl, shaped_vacated, rfl, rfl, rfl, s', hrun, ?_, ha.alive rfl,
    hd.gone rfl⟩
  rw [← hs']
  rfl

end leased

end Teardown
end TenantOperator
