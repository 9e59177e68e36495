import TenantOperator.Proofs.Interleaving.Revival
import TenantOperator.Proofs.Interruption.Repeat
import TenantOperator.Proofs.Tenancy.Cascade
import TenantOperator.Schedule.Backoff

/-! A pairing's reconcile that fails after its tenant was torn down. The check that discards what
the run wrote to the tenant's bundle and routing table stands at the end of the run, so a failure
before it leaves the clearing to the next attempt. -/
namespace TenantOperator
open Program Store

theorem retryFrom_of_isLast {σ α : Type} {c : RetryConfig} {op : σ → Except Error α × σ} {a b : σ}
    {r : Except Error α} {n : Nat} (h : op a = (r, b)) (hr : c.isLast (n + 1) r = true)
    (jitter : Jitter) (cancelled : σ → Bool) (fuel : Nat) :
    retryFrom c jitter cancelled op (fuel + 1) n a = ⟨n + 1, b, .result r⟩ := by
  simp only [retryFrom, h, RetryConfig.verdict, RetryConfig.settle, hr, if_true]

namespace Program
variable {α : Type} {s x : Store} {p q : Program α}

theorem Falters.calm (h : p.Falters s q x) (hs : s.Calm) : x.Calm := by
  induction h with
  | refl => exact hs
  | answered _ ih => exact ih (hs.answer _)
  | failed _ _ _ ih => exact ih hs

theorem falters_failed {n : Nat} {c : Call} {next : Except Error c.Answer → Program α}
    (h : (p.steps n s).1 = .call c next) (e : Error) (he : e.isAlreadyExists = false) :
    p.Falters s (next (.error e)) (p.steps n s).2 := by
  have hsteps := falters_steps n p s
  rw [h] at hsteps
  exact hsteps.trans (.failed e he (.refl _ _))

theorem Within.falters {P : Kind → Key → Prop} (h : p.Within P) (hs : s.Filed)
    (hx : p.Falters s q x) : q.Within P ∧ AgreeOff P s x := by
  have hkeep : ∀ (s' : Store) (c : Call), AgreeOff P s s' → (∀ k key, c.Writes k key → P k key) →
      AgreeOff P s (s'.answer c).2 := fun s' c hi hc =>
    hi.trans fun k key hp => s'.find?_answer_of_not_writes fun hw => hp (hc k key hw)
  obtain ⟨hq, hi, -⟩ := Every.falters h hkeep hs (.refl P s) hx
  exact ⟨hq, hi⟩

end Program

/-- What a pairing's reconcile may find of a tenant that was torn down: the tenant is gone, and the
pairing, too, unless it was not the tenant's by its labels. -/
structure Store.Deserted (ns tenant : String) (key : Key) (s : Store) : Prop where
  calm : s.Calm
  gone : s.find? .tenant (.inSpace ns tenant) = none
  owned : ∀ p, s.find? .pairing key = some p → p.content.tenantId = tenant

/-- Neither bundle nor routing table of the tenant. -/
def Store.Bare (ns tenant : String) (s : Store) : Prop :=
  s.find? .configMap (Bundle.tenantKey ns tenant) = none ∧
    s.find? .ingress (Routing.tableKey ns tenant) = none

theorem Store.bare_congr {s s' : Store} {ns tenant : String}
    (h : ∀ k key, Bundle.Shared ns tenant k key → s'.find? k key = s.find? k key) :
    s'.Bare ns tenant ↔ s.Bare ns tenant := by
  rw [Bare, Bare, h _ _ (Or.inl ⟨rfl, rfl⟩), h _ _ (Or.inr ⟨rfl, rfl⟩)]

namespace Reconcile
variable (st : Settings) {s s' x : Store} {ns name tenant : String}

theorem within_pairing (ns name : String) :
    (pairing st ns (.inSpace ns name)).Within fun k _ => k ≠ .tenant ∧ k ≠ .pairing := by
  rw [pairing_eq]
  refine every_bind (within_read (Call.reads_get _ _)) fun p => ?_
  cases p with
  | none =>
    refine every_bind (every_bind (within_of_reads (reads_pairingTenant _)) fun t => ?_)
      fun _ => trivial
    cases t with
    | none => trivial
    | some t =>
      refine (Teardown.within_clearPairing st ns name t).imp fun k key h => ?_
      rcases h with (⟨rfl, -⟩ | ⟨rfl, -⟩) | ⟨rfl | rfl, -⟩ <;> simp
  | some p =>
    refine (within_live st ns p).imp fun k key h => ?_
    rcases h with h | ⟨rfl, -⟩ | ⟨rfl, -⟩
    · rcases h with rfl | rfl <;> simp
    · simp
    · simp

theorem find?_of_falters_pairing {q r : Program Outcome} {s₁ : Store}
    (h : (pairing st ns (.inSpace ns name)).Falters s q s₁) (hs : s.Filed) (hs' : s'.Filed)
    (hx : q.Falters s' r x) {k : Kind} (hk : k = .tenant ∨ k = .pairing) (key : Key) :
    s₁.find? k key = s.find? k key ∧ x.find? k key = s'.find? k key := by
  obtain ⟨hq, ha⟩ := (within_pairing st ns name).falters hs h
  obtain ⟨-, ha'⟩ := hq.falters hs' hx
  have hoff : ¬(k ≠ .tenant ∧ k ≠ .pairing) := by rcases hk with rfl | rfl <;> simp
  exact ⟨ha k key hoff, ha' k key hoff⟩

theorem deserted_of_teardown (hs : s.Calm) {key : Key}
    (hp : ∀ p, s.find? .pairing key = some p → p.content.tenantId = tenant) {o : Outcome}
    (h : (reconcile st ⟨.tenant, .inSpace ns tenant⟩).run
      (s.remove .tenant (.inSpace ns tenant)) = (.ok o, s')) : s'.Deserted ns tenant key := by
  have hs₁ := hs.remove .tenant (.inSpace ns tenant)
  obtain ⟨s₂, hr, hc, ha, hnone, -⟩ := Teardown.run_tenant st ns tenant hs₁
  have hrun : (reconcile st ⟨.tenant, .inSpace ns tenant⟩).run
      (s.remove .tenant (.inSpace ns tenant)) = (.ok .tornDown, s₂) := by
    show (Reconcile.tenant st ns (.inSpace ns tenant)).run _ = _
    rw [Reconcile.tenant, run_bind_of_ok (hs₁.run_get _), find?_remove_self]
    exact run_bind_of_ok hr
  cases hrun.symm.trans h
  refine ⟨hc, ?_, fun p hfind => ?_⟩
  · rw [ha _ _ (by simp [Bundle.Shared, Teardown.Swept, Teardown.Children]), find?_remove_self]
  · by_cases hsw : Teardown.Swept ns ((s.remove .tenant (.inSpace ns tenant)).select .pairing
        (some ns) (Naming.tenantSelector tenant)) .pairing key
    · -- A pairing that was swept is gone.
      obtain ⟨q, hq, h | h | ⟨-, rfl⟩⟩ := hsw
      · simp [Bundle.Shared] at h
      · simp [Teardown.Children] at h
      · rw [hnone _ _ (Or.inr ⟨Or.inl rfl, q, hq, (hs₁.filed.of_mem_space hq).1.symm⟩)] at hfind
        cases hfind
    · rw [ha _ _ (by simpa [Bundle.Shared] using hsw), find?_remove_of_ne _ (by simp)] at hfind
      exact hp p hfind

theorem run_live_of_gone (hs : s.Calm) {p : Pairing}
    (hgone : s.find? .tenant (.inSpace ns p.content.tenantId) = none) :
    ∃ e, (live st ns p).run s = (.error e, s) ∧ e.isRetryable = false := by
  cases hv : p.content.validate with
  | error e =>
    refine ⟨e, ?_, ?_⟩
    · rw [live, hv]
      rfl
    · unfold PairingSpec.validate at hv
      split at hv <;> cases hv
      rfl
  | ok u =>
    refine ⟨Workload.missingTenant p.name p.content.tenantId, ?_, rfl⟩
    rw [live_eq, hv]
    show (Workload.parent _ _ _ >>= _).run s = _
    rw [Workload.parent, Program.bind_assoc, run_bind_of_ok (hs.run_get _), hgone]
    rfl

end Reconcile

namespace Teardown
variable (st : Settings) {s : Store} {ns name t tenant : String}

theorem bare_cleared (hgone : s.find? .tenant (.inSpace ns tenant) = none) :
    (cleared st ns name tenant s).Bare ns tenant := by
  have hnone {k : Kind} {key : Key} (hk : Bundle.Shared ns tenant k key) :
      (cleared st ns name tenant s).find? k key = none := by
    have hkinds : k ≠ .deployment ∧ k ≠ .service := by
      rcases hk with ⟨rfl, -⟩ | ⟨rfl, -⟩ <;> simp
    rw [cleared, find?_remove_of_ne _ (by simp [hkinds]), find?_remove_of_ne _ (by simp [hkinds])]
    exact find?_afterSync_gone st hgone hk
  exact ⟨hnone (Or.inl ⟨rfl, rfl⟩), hnone (Or.inr ⟨rfl, rfl⟩)⟩

theorem bare_cleared_of_ne (hne : t ≠ tenant) :
    (cleared st ns name t s).Bare ns tenant ↔ s.Bare ns tenant := by
  refine Store.bare_congr fun k key hk => agreeOff_cleared st ns name t s k key ?_
  rintro (h | ⟨hchild, -⟩)
  · exact hne (Bundle.shared_inj hk h).2.symm
  · rcases hk with ⟨rfl, -⟩ | ⟨rfl, -⟩ <;> simp at hchild

end Teardown

namespace Reconcile
variable (st : Settings) {s : Store} {ns name tenant : String}

/-- One attempt after the teardown is the last one. It clears what the tenant's pairings share if
the pairing is gone and has a child that tells the tenant, and otherwise leaves it as it is. -/
theorem run_pairing_deserted (h : s.Deserted ns tenant (.inSpace ns name)) :
    ∃ res s', (pairing st ns (.inSpace ns name)).run s = (res, s') ∧
      (∀ e, res = .error e → e.isRetryable = false) ∧
      (s'.Bare ns tenant ↔ s.Bare ns tenant ∨
        s.find? .pairing (.inSpace ns name) = none ∧
          Teardown.told s (.inSpace ns name) = some tenant) := by
  cases hp : s.find? .pairing (.inSpace ns name) with
  | some p =>
    have ht := h.owned p hp
    have hgone : s.find? .tenant (.inSpace ns p.content.tenantId) = none := by rw [ht, h.gone]
    obtain ⟨e, hrun, he⟩ := run_live_of_gone st h.calm hgone
    refine ⟨.error e, s, ?_, ?_, by simp⟩
    · rw [pairing_eq, run_bind_of_ok (h.calm.rests_get hp)]
      exact hrun
    · rintro _ ⟨⟩
      exact he
  | none =>
    refine ⟨_, _, run_pairing_gone st h.calm hp, by rintro _ ⟨⟩, ?_⟩
    cases htold : Teardown.told s (.inSpace ns name) with
    | none => simp
    | some t =>
      simp only [Option.elim_some, Option.some.injEq, true_and]
      by_cases heq : t = tenant
      · subst heq
        simp [Teardown.bare_cleared st h.gone]
      · simp [Teardown.bare_cleared_of_ne st heq, heq]

/-- The reconcile of a tenant's pairing may falter at any calls; at any point of it the tenant is
deleted and its own reconcile runs to the end; the pairing's reconcile goes on from there and is
left again, be it by a failure, and attempted anew. That attempt is the last one, and after it there
is neither bundle nor routing table of the tenant if and only if there was none when the run was
left, or the pairing is gone and a child of it tells the tenant. -/
theorem bare_iff_of_retry {s₀ s₁ s₂ s₃ : Store} (hs : s₀.Reached) (hf : s₀.faults = [])
    (hp : ∀ p, s₀.find? .pairing (.inSpace ns name) = some p → p.content.tenantId = tenant)
    {q r : Program Outcome} (h₁ : (reconcile st ⟨.pairing, .inSpace ns name⟩).Falters s₀ q s₁)
    {o : Outcome} (h₂ : (reconcile st ⟨.tenant, .inSpace ns tenant⟩).run
      (s₁.remove .tenant (.inSpace ns tenant)) = (.ok o, s₂))
    (h₃ : q.Falters s₂ r s₃) (c : RetryConfig) (jitter : Jitter) (cancelled : Store → Bool)
    (fuel n : Nat) :
    ∃ res s₄, retryFrom c jitter cancelled (reconcile st ⟨.pairing, .inSpace ns name⟩).run
        (fuel + 1) n s₃ = ⟨n + 1, s₄, .result res⟩ ∧ (∀ e, res = .error e → e.isRetryable = false) ∧
      (s₄.Bare ns tenant ↔ s₃.Bare ns tenant ∨ s₃.find? .pairing (.inSpace ns name) = none ∧
        Teardown.told s₃ (.inSpace ns name) = some tenant) := by
  have hc₀ : s₀.Calm := ⟨hs.filed, hf⟩
  have hc₁ : s₁.Calm := h₁.calm hc₀
  have hkept₁ := (find?_of_falters_pairing st h₁ hc₀.filed hc₀.filed (.refl q s₀)
    (Or.inr rfl) (.inSpace ns name)).1
  have hd₂ : s₂.Deserted ns tenant (.inSpace ns name) :=
    deserted_of_teardown st hc₁ (by rwa [hkept₁]) h₂
  have hkept₃ {k : Kind} (hk : k = .tenant ∨ k = .pairing) (key : Key) :=
    (find?_of_falters_pairing st h₁ hc₀.filed hd₂.calm.filed h₃ hk key).2
  have hd₃ : s₃.Deserted ns tenant (.inSpace ns name) :=
    ⟨h₃.calm hd₂.calm, by rw [hkept₃ (Or.inl rfl), hd₂.gone],
      by rw [hkept₃ (Or.inr rfl)]; exact hd₂.owned⟩
  obtain ⟨res, s₄, hrun, hres, hiff⟩ := run_pairing_deserted st hd₃
  refine ⟨res, s₄, retryFrom_of_isLast hrun ?_ jitter cancelled fuel, hres, hiff⟩
  cases res with
  | ok o => rfl
  | error e => simp [RetryConfig.isLast, hres e rfl]

section cut

def pairingOfC : ReconcileRequest := ⟨.pairing, .inSpace "dc1" (Naming.pairing "a" "c")⟩

/-- What is left of the reconcile after some calls, and the store in which the tenant was torn down
then. -/
def tornAfter (n : Nat) : Program Outcome × Store :=
  let (q, s) := (reconcile {} pairingOfC).steps n Pool.paired
  (q, ((reconcile {} ⟨.tenant, .inSpace "dc1" "a"⟩).run (s.remove .tenant (.inSpace "dc1" "a"))).2)

/-- It goes on for some calls, the next one fails, and it is attempted anew. -/
def retriedAfter (n m : Nat) : Attempts Store Outcome :=
  retryFrom {} .steady (fun _ => false) (reconcile {} pairingOfC).run 1 1
    ((tornAfter n).1.steps m (tornAfter n).2).2

theorem tenantId_of_paired (p : Pairing)
    (h : Pool.paired.find? .pairing (.inSpace "dc1" (Naming.pairing "a" "c")) = some p) :
    p.content.tenantId = "a" := by
  cases h
  rfl

/-- Torn down before its children are made, the pairing has them when the listing of the pairings
fails, and the next attempt clears the bundle away. -/
theorem bare_retriedAfter : ¬((tornAfter 4).1.steps 7 (tornAfter 4).2).2.Bare "dc1" "a" ∧
    (retriedAfter 4 7).state.Bare "dc1" "a" := by
  refine ⟨fun h => (by cases h.1), ?_⟩
  have htorn : (reconcile {} ⟨.tenant, .inSpace "dc1" "a"⟩).run
      (((reconcile {} pairingOfC).steps 4 Pool.paired).2.remove .tenant (.inSpace "dc1" "a")) =
      (.ok .tornDown, (tornAfter 4).2) := rfl
  obtain ⟨res, s₄, hretry, -, hiff⟩ := bare_iff_of_retry {} Pool.reached_paired rfl
    tenantId_of_paired (falters_steps 4 (reconcile {} pairingOfC) Pool.paired) htorn
    (falters_failed (n := 7) rfl (.store "down") rfl) {} .steady (fun _ => false) 0 1
  have hstate : (retriedAfter 4 7).state = s₄ := congrArg Attempts.state hretry
  rw [hstate]
  exact hiff.2 (Or.inr ⟨rfl, rfl⟩)

/-- Torn down after its children are made, the pairing has no child when the listing fails, and the
next attempt leaves the bundle that was made anew. -/
theorem not_forall_bare :
    ¬∀ (st : Settings) (c : RetryConfig) (jitter : Jitter) (s₀ s₁ s₂ s₃ s₄ : Store)
      (ns name tenant : String) (q : Program Outcome) (o : Outcome) (e : Error) (fuel count : Nat)
      (res : Except Error Outcome), s₀.Reached → s₀.faults = [] → s₀.Shaped →
      (∀ p, s₀.find? .pairing (.inSpace ns name) = some p → p.content.tenantId = tenant) →
      (reconcile st ⟨.pairing, .inSpace ns name⟩).Falters s₀ q s₁ →
      (reconcile st ⟨.tenant, .inSpace ns tenant⟩).run (s₁.remove .tenant (.inSpace ns tenant)) =
        (.ok o, s₂) →
      q.Falters s₂ (.done (.error e)) s₃ → e.isRetryable = true →
      retryFrom c jitter (fun _ => false) (reconcile st ⟨.pairing, .inSpace ns name⟩).run fuel 1
        s₃ = ⟨count, s₄, .result res⟩ →
      (∀ e, res = .error e → e.isRetryable = false) → s₄.Bare ns tenant := by
  intro h
  have hcut := falters_failed (p := (tornAfter 9).1) (s := (tornAfter 9).2) (n := 2) rfl
    (.store "down") rfl
  have hbare : (retriedAfter 9 2).state.Bare "dc1" "a" :=
    h {} {} .steady Pool.paired _ (tornAfter 9).2 ((tornAfter 9).1.steps 2 (tornAfter 9).2).2 _
      "dc1" (Naming.pairing "a" "c") "a" _ .tornDown (.store "down") 1 2 (.ok .tornDown)
      Pool.reached_paired rfl Pool.shaped_paired
      tenantId_of_paired (falters_steps 9 (reconcile {} pairingOfC) Pool.paired) rfl hcut rfl rfl
      (by rintro _ ⟨⟩)
  cases hbare.1

end cut

end Reconcile
end TenantOperator
