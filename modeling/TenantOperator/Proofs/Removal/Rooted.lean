import Mathlib.Logic.Relation
import TenantOperator.Proofs.Interruption.Converging
import TenantOperator.Proofs.Tenancy.Idempotence

/-! Stores in which no child is without its pairing. Stores of declared entities are such, and
reconciles keep them so: children are made for a pairing that is there, and a pairing is only
cleared away together with its children. -/
namespace TenantOperator
open Program Store

/-- Whatever tells of a pairing's tenant lies under the key of a pairing of that tenant. -/
structure Store.Rooted (s : Store) : Prop where
  calm : s.Calm
  shaped : s.Shaped
  children : ∀ k key (r : Resource k), k = .deployment ∨ k = .service → s.find? k key = some r →
    ∃ p, s.find? .pairing key = some p ∧ Teardown.tenantOf r = some p.content.tenantId

def Kind.Declared (k : Kind) : Prop :=
  k = .inst ∨ k = .tenant ∨ k = .microservice ∨ k = .instTemplate ∨ k = .microserviceTemplate

namespace Store
variable {s s' : Store}

theorem find?_eq_none_of_declared (h : ∀ k key, (s.find? k key).isSome → k.Declared) {k : Kind}
    (hk : ¬k.Declared) (key : Key) : s.find? k key = none := by
  rw [← Option.not_isSome_iff_eq_none]
  exact fun hsome => hk (h k key hsome)

theorem shaped_of_declared (h : ∀ k key, (s.find? k key).isSome → k.Declared) : s.Shaped := by
  intro key p hp
  rw [find?_eq_none_of_declared h (by simp [Kind.Declared])] at hp
  cases hp

theorem rooted_of_declared (hs : s.Calm)
    (h : ∀ k key, (s.find? k key).isSome → k.Declared) : s.Rooted := by
  refine ⟨hs, shaped_of_declared h, fun k key r hk hr => ?_⟩
  rw [find?_eq_none_of_declared h (by rcases hk with rfl | rfl <;> simp [Kind.Declared])] at hr
  cases hr

namespace Rooted

theorem tenantOf_eq (h : s.Rooted) {key : Key} {p : Pairing}
    (hp : s.find? .pairing key = some p) {k : Kind} (hk : k = .deployment ∨ k = .service)
    {r : Resource k} (hr : s.find? k key = some r) :
    Teardown.tenantOf r = some p.content.tenantId := by
  obtain ⟨q, hq, ht⟩ := h.children k key r hk hr
  cases hp.symm.trans hq
  exact ht

theorem told_eq (h : s.Rooted) {key : Key} {p : Pairing} (hp : s.find? .pairing key = some p) :
    Teardown.told s key =
      if (s.find? .deployment key).isSome ∨ (s.find? .service key).isSome
      then some p.content.tenantId else none := by
  rw [Teardown.told]
  cases hd : s.find? .deployment key with
  | some d => simp [h.tenantOf_eq hp (Or.inl rfl) hd]
  | none =>
    cases hsv : s.find? .service key with
    | some sv => simp [h.tenantOf_eq hp (Or.inr rfl) hsv]
    | none => simp

theorem told_eq_none (h : s.Rooted) {key : Key} (hp : s.find? .pairing key = none) :
    Teardown.told s key = none := by
  have hnone {k : Kind} (hk : k = .deployment ∨ k = .service) : s.find? k key = none := by
    refine Option.eq_none_iff_forall_ne_some.2 fun r hr => ?_
    obtain ⟨p, hp', -⟩ := h.children k key r hk hr
    rw [hp] at hp'
    cases hp'
  rw [Teardown.told, hnone (Or.inl rfl), hnone (Or.inr rfl)]
  rfl

theorem congr (h : s.Rooted) (hc : s'.Calm)
    (ha : AgreeOff (fun k _ => k ≠ .pairing ∧ k ≠ .deployment ∧ k ≠ .service) s s') :
    s'.Rooted := by
  have hp (key : Key) : s'.find? .pairing key = s.find? .pairing key := ha _ _ (by simp)
  refine ⟨hc, fun key p hp' => ?_, fun k key r hk hr => ?_⟩
  · rw [hp] at hp'
    exact h.shaped hp'
  · rw [ha k key (by rcases hk with rfl | rfl <;> simp)] at hr
    rw [hp]
    exact h.children k key r hk hr

theorem stage (h : s.Rooted) {ns : String} {T : String → Prop} (hst : Matrix.Stage ns T s s') :
    s'.Rooted := by
  refine ⟨hst.calm h.calm, hst.shaped h.shaped, fun k key r hk hr => ?_⟩
  rw [hst.find?_eq (by rcases hk with rfl | rfl <;> simp)] at hr
  obtain ⟨p, hp, ht⟩ := h.children k key r hk hr
  exact ⟨p, hst.kept key p hp, ht⟩

theorem swept (h : s.Rooted) {ns : String} {ps : List Pairing} {P : Kind → Key → Prop}
    (hc : s'.Calm) (hP : ∀ k key, P k key → k ≠ .pairing ∧ k ≠ .deployment ∧ k ≠ .service)
    (ha : AgreeOff (fun k key => P k key ∨ Teardown.Swept ns ps k key) s s')
    (hgone : ∀ p ∈ ps, ∀ k, k = .pairing ∨ k = .deployment ∨ k = .service →
      s'.find? k (.inSpace ns p.name) = none) : s'.Rooted := by
  -- Each key has lost all three objects or none of them.
  have hcases (key : Key) : (∀ k, k = .pairing ∨ k = .deployment ∨ k = .service →
      s'.find? k key = none) ∨ ∀ k, k = .pairing ∨ k = .deployment ∨ k = .service →
        s'.find? k key = s.find? k key := by
    by_cases hkey : ∃ p ∈ ps, key = .inSpace ns p.name
    · obtain ⟨p, hp, rfl⟩ := hkey
      exact Or.inl (hgone p hp)
    · refine Or.inr fun k hk => ha k key ?_
      rintro (hp | ⟨p, hp, hshared | ⟨-, rfl⟩ | ⟨-, rfl⟩⟩)
      · obtain ⟨h₁, h₂, h₃⟩ := hP k key hp
        rcases hk with rfl | rfl | rfl <;> contradiction
      · rcases hk with rfl | rfl | rfl <;> simp [Bundle.Shared] at hshared
      · exact hkey ⟨p, hp, rfl⟩
      · exact hkey ⟨p, hp, rfl⟩
  refine ⟨hc, fun key p hp => ?_, fun k key r hk hr => ?_⟩
  · rcases hcases key with hnone | hsame
    · rw [hnone _ (Or.inl rfl)] at hp
      cases hp
    · rw [hsame _ (Or.inl rfl)] at hp
      exact h.shaped hp
  · rcases hcases key with hnone | hsame
    · rw [hnone _ (Or.inr hk)] at hr
      cases hr
    · rw [hsame _ (Or.inr hk)] at hr
      rw [hsame _ (Or.inl rfl)]
      exact h.children k key r hk hr

theorem ensured (h : s.Rooted) {k : Kind} (hk : k = .deployment ∨ k = .service) {r : Resource k}
    {p : Pairing} (hp : s.find? .pairing r.key = some p)
    (ht : Teardown.tenantOf r = some p.content.tenantId) : (s.ensured r).Rooted := by
  have ha := s.agreeOff_ensured r
  have hpairing (key : Key) : (s.ensured r).find? .pairing key = s.find? .pairing key :=
    ha _ _ (by rcases hk with rfl | rfl <;> simp)
  refine ⟨h.calm.ensured _, fun key q hq => ?_, fun l key c hl hc => ?_⟩
  · rw [hpairing] at hq
    exact h.shaped hq
  · rw [hpairing]
    by_cases hlk : l = k
    · subst hlk
      rcases eq_of_find?_ensured hc with hold | ⟨rfl, v, rfl⟩
      · exact h.children l key c hl hold
      · exact ⟨p, hp, ht⟩
    · rw [ha _ _ fun hkey => hlk hkey.1] at hc
      exact h.children l key c hl hc

end Rooted
end Store

namespace Reconcile
variable (st : Settings) {s s' : Store} {ns name : String} {o : Outcome}

theorem rooted_inst (h : s.Rooted) (key : Key) : ((inst key).run s).2.Rooted := by
  have hwithin : (inst key).Within fun k _ => k = .space ∨ k = .configMap := by
    rw [inst_eq]
    refine every_bind (within_of_reads (reads_get ..)) fun i => ?_
    cases i with
    | none => trivial
    | some i => exact within_made key i
  refine h.congr (h.calm.run (p := inst key) rfl)
    ((hwithin.run h.calm.filed).1.mono fun k _ hk => ?_)
  rcases hk with rfl | rfl <;> simp

theorem rooted_tenant (h : s.Rooted)
    (hrun : (Reconcile.tenant st ns (.inSpace ns name)).run s = (.ok o, s')) : s'.Rooted := by
  cases ht : s.find? .tenant (.inSpace ns name) with
  | some t =>
    rw [Reconcile.tenant, run_bind_of_ok (h.calm.rests_get ht)] at hrun
    dsimp only at hrun
    rw [run_bind_ok] at hrun
    obtain ⟨n, s₁, hn, hrun⟩ := hrun
    cases hrun
    obtain ⟨_, -, hst, -⟩ := Matrix.run_resolveTenant_ok hn
    exact h.stage hst
  | none =>
    rw [Reconcile.tenant, run_bind_of_ok (h.calm.rests_get ht)] at hrun
    obtain ⟨s₁, hr, hc, ha, hgone, -⟩ := Teardown.run_tenant st ns name h.calm
    obtain ⟨rfl, rfl⟩ := run_bind_pure_eq hr hrun
    refine h.swept hc (P := Bundle.Shared ns name) (fun k key hk => ?_) ha fun p hp k hk => ?_
    · rcases hk with ⟨rfl, -⟩ | ⟨rfl, -⟩ <;> simp
    · exact hgone _ _ (Or.inr ⟨hk, p, hp, (h.calm.filed.of_mem_space hp).1.symm⟩)

theorem rooted_microservice (h : s.Rooted)
    (hrun : (Reconcile.microservice st ns (.inSpace ns name)).run s = (.ok o, s')) :
    s'.Rooted := by
  cases hm : s.find? .microservice (.inSpace ns name) with
  | some m =>
    rw [Reconcile.microservice, run_bind_of_ok (h.calm.rests_get hm)] at hrun
    dsimp only at hrun
    rw [run_bind_ok] at hrun
    obtain ⟨_, s₁, hok, hrun⟩ := hrun
    obtain ⟨-, rfl⟩ := run_ofExcept_ok hok
    rw [run_bind_of_ok (h.calm.run_list ..), run_bind_ok] at hrun
    obtain ⟨_, s₂, ht, hrun⟩ := hrun
    cases hrun
    exact h.stage (run_tenants_ok st h.calm (h.calm.filed.nodup_names ..)
      (fun t hmem => alive_of_mem_select h.calm.filed hmem) ht).1
  | none =>
    rw [Reconcile.microservice, run_bind_of_ok (h.calm.rests_get hm)] at hrun
    obtain ⟨s₁, hr, hc, ha, hgone, -⟩ :=
      Teardown.run_pairings st ns h.calm (Naming.microserviceSelector name)
    obtain ⟨rfl, rfl⟩ := run_bind_pure_eq hr hrun
    exact h.swept hc (P := fun _ _ => False) (fun _ _ => False.elim)
      (ha.mono fun _ _ => Or.inr) hgone

theorem rooted_synthesize (h : s.Rooted) {p : Pairing}
    (hp : s.find? .pairing (.inSpace ns p.name) = some p) :
    ((Workload.synthesize p).run s).2.Rooted := by
  rcases Workload.passes_synthesize h.calm (passes_end _ s) with hsame | ⟨t, m, i, hless, hmade⟩
  · rwa [hsame]
  · obtain ⟨ns', hns', -, ht, hm, hi⟩ := hless
    have hkey : p.key = .inSpace ns p.name := h.calm.filed hp
    have hns : p.metadata.ns = some ns := congrArg Key.ns hkey
    cases hns.symm.trans hns'
    have htname : t.name = p.content.tenantId := congrArg Key.name (h.calm.filed ht)
    have hmname : m.name = p.content.microserviceId := congrArg Key.name (h.calm.filed hm)
    have hiname : i.name = ns := congrArg Key.name (h.calm.filed hi)
    -- Both children have the key of the pairing.
    have hchild : (Workload.service i t m).key = .inSpace ns p.name := by
      show Key.inSpace i.name (Naming.pairing t.name m.name) = _
      rw [hiname, htname, hmname, ← hkey, (h.shaped hp).key_eq hns]
    have hlabel : (Naming.managedLabels t.name m.name).find? Naming.tenantLabel =
        some p.content.tenantId := by
      rw [Naming.find?_managedLabels_tenant, htname]
    have hpair : s.find? .pairing (Workload.service i t m).key = some p := by rw [hchild, hp]
    have h₁ := h.ensured (Or.inr rfl) hpair hlabel
    rcases hmade with hmade | hmade <;> rw [hmade]
    · exact h₁
    · refine h₁.ensured (Or.inl rfl) (r := Workload.deployment i t m) ?_ hlabel
      rw [s.agreeOff_ensured _ _ _ (by simp)]
      exact hpair

theorem rooted_pairing (h : s.Rooted)
    (hrun : (Reconcile.pairing st ns (.inSpace ns name)).run s = (.ok o, s')) : s'.Rooted := by
  cases hp : s.find? .pairing (.inSpace ns name) with
  | none =>
    rw [run_pairing_gone st h.calm hp, h.told_eq_none hp] at hrun
    cases hrun
    exact h
  | some p =>
    have hkey : p.key = .inSpace ns name := h.calm.filed hp
    obtain rfl : p.name = name := congrArg Key.name hkey
    rw [pairing_eq, run_bind_of_ok (h.calm.rests_get hp)] at hrun
    dsimp only at hrun
    rw [live_eq, run_bind_ok] at hrun
    obtain ⟨_, s₁, hok, hrun⟩ := hrun
    obtain ⟨-, rfl⟩ := run_ofExcept_ok hok
    rw [run_bind_ok] at hrun
    obtain ⟨t, s₂, ht, hrun⟩ := hrun
    obtain ⟨-, rfl⟩ := Workload.run_parent_ok ht
    rw [run_bind_ok] at hrun
    obtain ⟨x, s₃, hx, hrun⟩ := hrun
    have h₃ := rooted_synthesize h hp
    rw [hx] at h₃
    have ha := ((within_announce st ns p).run h₃.calm.filed).1
    rw [hrun] at ha
    refine h₃.congr (h₃.calm.run hrun) (ha.mono fun k key hk => ?_)
    rcases hk with ⟨rfl, -⟩ | ⟨rfl, -⟩ <;> simp

/-- A reconcile that ends well leaves no child without its pairing. -/
theorem rooted_reconcile (h : s.Rooted) {r : ReconcileRequest}
    (hrun : (reconcile st r).run s = (.ok o, s')) : s'.Rooted := by
  obtain ⟨kind, name, ns⟩ := r
  cases kind with
  | inst =>
    have hinst := rooted_inst h ⟨name, ns⟩
    rwa [show (inst ⟨name, ns⟩).run s = (.ok o, s') from hrun] at hinst
  | tenant =>
    cases ns with
    | none => cases hrun
    | some ns => exact rooted_tenant st h hrun
  | microservice =>
    cases ns with
    | none => cases hrun
    | some ns => exact rooted_microservice st h hrun
  | pairing =>
    cases ns with
    | none => cases hrun
    | some ns => exact rooted_pairing st h hrun

/-- Reconciles that end well lead from one store to the other. -/
def Reaches (st : Settings) : Store → Store → Prop :=
  Relation.ReflTransGen fun s s' => ∃ r o, (reconcile st r).run s = (.ok o, s')

theorem rooted_of_reaches (h : s.Rooted) (hl : Reaches st s s') : s'.Rooted := by
  induction hl with
  | refl => exact h
  | tail _ hstep ih =>
    obtain ⟨r, o, hrun⟩ := hstep
    exact rooted_reconcile st ih hrun

end Reconcile
end TenantOperator
