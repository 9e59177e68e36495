import TenantOperator.Proofs.Interleaving.Publish

/-! Who makes the pairings of a tenant. Only the matrix makes pairings, for a tenant that was read
or listed. So a reconcile that has not read a tenant makes no pairing of it once the tenant is gone.
-/
namespace TenantOperator
open Program Store

/-- Namespace and label are those of the tenant's pairings. -/
def Pairing.Of (ns tenant : String) (p : Pairing) : Prop :=
  p.metadata.ns = some ns ∧ p.metadata.labelMap.find? Naming.tenantLabel = some tenant

theorem Pairing.of_forPair {ns ns' t tenant m : String} {c : Configuration} {v : Option String} :
    Pairing.Of ns tenant ((Pairing.forPair ns' t m c).withVersion v) ↔ ns' = ns ∧ t = tenant := by
  have hlabel : ((Pairing.forPair ns' t m c).withVersion v).metadata.labelMap.find?
      Naming.tenantLabel = some t := Naming.find?_managedLabels_tenant
  rw [Of, hlabel, Option.some.injEq]
  exact and_congr_left' Option.some_inj

namespace Call

/-- Answers of a store in which there is no tenant `owner`. -/
def Hides (owner : Key) : (c : Call) → Except Error c.Answer → Prop
  | .get k _, .ok (some r) => k = .tenant → r.key ≠ owner
  | .list k _ _, .ok l => k = .tenant → ∀ r ∈ l, r.key ≠ owner
  | _, _ => True

/-- Calls that put neither tenants nor pairings. -/
def Humble (c : Call) : Prop := ∀ key, ¬c.Puts .tenant key ∧ ¬c.Puts .pairing key

/-- Calls that put no tenants, and no pairings but new ones for two ids. -/
def Modest (c : Call) : Prop :=
  (∀ key, ¬c.Puts .tenant key) ∧ ∀ key, c.Puts .pairing key →
    ∃ ns t m x, c = .create .pairing (Pairing.forPair ns t m x)

def Shuns (ns tenant : String) (c : Call) : Prop :=
  ∀ m x, c ≠ .create .pairing (Pairing.forPair ns tenant m x)

variable {c : Call} {ns tenant : String}

theorem humble_of_reads (h : c.Reads) : c.Humble :=
  fun _ => ⟨fun hp => h _ _ (Or.inl hp), fun hp => h _ _ (Or.inl hp)⟩

theorem humble_delete (k : Kind) (key : Key) : (Call.delete k key).Humble :=
  fun _ => ⟨id, id⟩

theorem Humble.modest (h : c.Humble) : c.Modest :=
  ⟨fun key => (h key).1, fun key hp => absurd hp (h key).2⟩

theorem Humble.shuns (h : c.Humble) : c.Shuns ns tenant := by
  rintro m x rfl
  exact (h _).2 ⟨rfl, rfl⟩

theorem modest_forPair (ns tenant m : String) (x : Configuration) :
    (Call.create .pairing (Pairing.forPair ns tenant m x)).Modest :=
  ⟨fun _ h => (by cases h.1), fun _ _ => ⟨_, _, _, _, rfl⟩⟩

theorem shuns_forPair {ns' t : String} (h : ¬(ns' = ns ∧ t = tenant)) (m : String)
    (x : Configuration) :
    (Call.create .pairing (Pairing.forPair ns' t m x)).Shuns ns tenant := by
  intro m' x' he
  have hpair : Pairing.forPair ns' t m x = Pairing.forPair ns tenant m' x' :=
    eq_of_heq (Call.create.inj he).2
  have hns : some ns' = some ns := congrArg (·.metadata.ns) hpair
  exact h ⟨Option.some.inj hns, congrArg (·.content.tenantId) hpair⟩

end Call

theorem Store.Filed.hides {s : Store} (hs : s.Filed) {owner : Key}
    (h : s.find? .tenant owner = none) (c : Call) : c.Hides owner (s.perform c).1 := by
  have hne {r : Tenant} {key : Key} (hr : s.find? .tenant key = some r) : r.key ≠ owner := by
    rintro rfl
    rw [hs hr, hr] at h
    cases h
  rcases s.perform_eq c with he | ⟨p, l, he⟩ <;> rw [he]
  · cases c with
    | get k key =>
      simp only [Store.answer]
      cases hr : s.find? k key with
      | none => trivial
      | some r =>
        rintro rfl
        exact hne hr
    | list k ns labels =>
      rintro rfl r hr
      exact hne (hs.of_mem_select hr).1
    | create k r => trivial
    | update k r => trivial
    | delete k key => trivial
  · cases c <;> trivial

namespace Program
variable {α β : Type} {ns tenant : String}

theorem Within.humble {P : Kind → Key → Prop} {p : Program α} (h : p.Within P)
    (hP : ∀ key, ¬P .tenant key ∧ ¬P .pairing key) : p.Every Call.Humble :=
  h.mono fun _ hc key => ⟨fun hp => (hP key).1 (hc _ _ (Or.inl hp)),
    fun hp => (hP key).2 (hc _ _ (Or.inl hp))⟩

/-- What follows a call may count on what a store in order answers. -/
theorem every_perform_bind {Q : Call → Prop} {c : Call} {f : c.Answer → Program β} (hc : Q c)
    (hf : ∀ a, c.Admits (.ok a) → (f a).Every Q) : (perform c >>= f).Every Q := by
  refine ⟨hc, fun a ha => ?_⟩
  cases a with
  | ok a => exact hf a ha
  | error e => trivial

/-- While the tenant is gone, the program makes no pairing for it. -/
def Shuns (ns tenant : String) : Program α → Prop
  | .done _ => True
  | .call c next => c.Shuns ns tenant ∧
    ∀ a, c.Admits a → c.Hides (.inSpace ns tenant) a → (next a).Shuns ns tenant

theorem shuns_of_every {p : Program α} (h : p.Every (Call.Shuns ns tenant)) :
    p.Shuns ns tenant := by
  induction p with
  | done r => trivial
  | call c next ih => exact ⟨h.1, fun a ha _ => ih a (h.2 a ha)⟩

theorem shuns_bind {p : Program α} {f : α → Program β} (hp : p.Shuns ns tenant)
    (hf : ∀ a, (f a).Shuns ns tenant) : (p >>= f).Shuns ns tenant := by
  induction p with
  | done r =>
    cases r with
    | ok a => exact hf a
    | error e => trivial
  | call c next ih => exact ⟨hp.1, fun a ha hh => ih a (hp.2 a ha hh)⟩

theorem shuns_get_bind {k : Kind} {key : Key} {f : Option (Resource k) → Program β}
    (hnone : (f none).Shuns ns tenant)
    (hsome : ∀ r, r.key = key → (k = .tenant → r.key ≠ .inSpace ns tenant) →
      (f (some r)).Shuns ns tenant) :
    (Program.get k key >>= f).Shuns ns tenant := by
  refine ⟨(Call.humble_of_reads (Call.reads_get k key)).shuns, fun a ha hh => ?_⟩
  cases a with
  | error e => trivial
  | ok r =>
    cases r with
    | none => exact hnone
    | some r => exact hsome r ha hh

end Program

namespace Reconcile
variable {st : Settings} {ns tenant : String}

theorem chores_of_humble {Q : Call → Prop} (hQ : ∀ c : Call, c.Humble → Q c) :
    Chores st fun _ p => p.Every Q := by
  have hcreate {k : Kind} (r : Resource k) (hk : k ≠ .tenant ∧ k ≠ .pairing) :
      (ensureCreated r).Every Q :=
    every_ensureCreated (hQ _ fun _ => ⟨fun h => hk.1 h.1, fun h => hk.2 h.1⟩)
  exact
    { done := fun _ => trivial
      bind := every_bind
      read := fun h => every_perform (hQ _ (Call.humble_of_reads h))
      delete := fun k key => every_perform (hQ _ (Call.humble_delete k key))
      makeService := fun i t m => hcreate _ (by simp)
      makeDeployment := fun i t m => hcreate _ (by simp)
      makeSpace := fun i => hcreate _ (by simp)
      makeBundle := fun i c => hcreate _ (by simp)
      sync := fun ns tenant => ((Teardown.within_syncTenant st ns tenant).humble
        (by simp [Bundle.Shared])).mono hQ
      publish := fun ns tenant area c => ((within_publish st ns tenant area c).humble
        (by simp [Bundle.Shared])).mono hQ }

theorem steps_modest : Steps st fun _ p => p.Every Call.Modest where
  toChores := chores_of_humble fun _ h => h.modest
  makePairing ns tenant m c := every_ensureCreated (Call.modest_forPair ns tenant m c)

theorem chores_shuns : Chores st fun _ p => p.Every (Call.Shuns ns tenant) :=
  chores_of_humble fun _ h => h.shuns

theorem every_shuns_resolveTenant {t : Tenant} (ht : t.key ≠ .inSpace ns tenant) :
    (Matrix.resolveTenant t).Every (Call.Shuns ns tenant) := by
  have h : Chores {} fun _ p => p.Every (Call.Shuns ns tenant) := chores_shuns
  refine h.resolveTenant fun ns' hns m c => ?_
  refine every_ensureCreated (Call.shuns_forPair ?_ m c)
  rintro ⟨rfl, rfl⟩
  exact ht (congrArg (Key.mk t.name) hns)

theorem every_shuns_tenants (ns' : String) {ts : List Tenant}
    (hts : ∀ t ∈ ts, t.key ≠ .inSpace ns tenant) :
    (tenants st ns' ts).Every (Call.Shuns ns tenant) := by
  induction ts with
  | nil => trivial
  | cons t ts ih =>
    refine every_bind (every_shuns_resolveTenant (hts t List.mem_cons_self)) fun _ => ?_
    exact every_bind (chores_shuns.sync ..) fun _ => ih fun u hu =>
      hts u (List.mem_cons_of_mem t hu)

theorem shuns_tenant (ns' : String) (key : Key) :
    (Reconcile.tenant st ns' key).Shuns ns tenant := by
  refine shuns_get_bind ?_ fun t _ ht => ?_
  · exact shuns_of_every (every_bind (chores_shuns.clearTenant ..) fun _ => trivial)
  · exact shuns_of_every (every_bind (every_shuns_resolveTenant (ht rfl)) fun _ => trivial)

theorem shuns_microservice (ns' : String) (key : Key) :
    (Reconcile.microservice st ns' key).Shuns ns tenant := by
  refine shuns_get_bind ?_ fun m _ _ => ?_
  · exact shuns_of_every (every_bind (chores_shuns.pairings ..) fun _ => trivial)
  · refine shuns_bind (shuns_of_every (every_ofExcept _)) fun _ => ?_
    refine ⟨(Call.humble_of_reads (Call.reads_list _ _ _)).shuns, fun a _ hh => ?_⟩
    cases a with
    | error e => trivial
    | ok ts =>
      show (tenants st ns' ts >>= fun _ => pure Outcome.converged).Shuns ns tenant
      exact shuns_of_every (every_bind (every_shuns_tenants ns' (hh rfl)) fun _ => trivial)

theorem every_shuns_tenant (ns' : String) {key : Key} (hne : key ≠ .inSpace ns tenant) :
    (Reconcile.tenant st ns' key).Every (Call.Shuns ns tenant) := by
  refine every_perform_bind (Call.humble_of_reads (Call.reads_get _ _)).shuns fun t ht => ?_
  cases t with
  | none => exact every_bind (chores_shuns.clearTenant ..) fun _ => trivial
  | some t =>
    have hkey : t.key = key := ht
    exact every_bind (every_shuns_resolveTenant (hkey ▸ hne)) fun _ => trivial

theorem every_shuns_microservice {ns' : String} (hne : ns' ≠ ns) (key : Key) :
    (Reconcile.microservice st ns' key).Every (Call.Shuns ns tenant) := by
  refine every_perform_bind (Call.humble_of_reads (Call.reads_get _ _)).shuns fun m _ => ?_
  cases m with
  | none => exact every_bind (chores_shuns.pairings ..) fun _ => trivial
  | some m =>
    refine every_bind (every_ofExcept _) fun _ => ?_
    refine every_perform_bind (Call.humble_of_reads (Call.reads_list _ _ _)).shuns fun ts hts => ?_
    refine every_bind (every_shuns_tenants ns' fun t ht hkey => ?_) fun _ => trivial
    have hspace : t.metadata.ns = some ns' := (hts t ht).1 ns' rfl
    have hns : t.metadata.ns = some ns := congrArg Key.ns hkey
    exact hne (Option.some.inj (hspace.symm.trans hns))

/-- Only the tenant's own reconcile, and those of the microservices in its namespace, may make a
pairing of it. -/
theorem every_shuns_reconcile {r : ReconcileRequest} (ht : r ≠ ⟨.tenant, .inSpace ns tenant⟩)
    (hm : ∀ m, r ≠ ⟨.microservice, .inSpace ns m⟩) :
    (reconcile st r).Every (Call.Shuns ns tenant) := by
  have h : Chores st fun _ p => p.Every (Call.Shuns ns tenant) := chores_shuns
  obtain ⟨kind, name, space⟩ := r
  cases kind with
  | inst => exact h.inst _
  | pairing =>
    cases space with
    | none => trivial
    | some space => exact h.pairing ..
  | tenant =>
    cases space with
    | none => trivial
    | some space =>
      refine every_shuns_tenant space ?_
      rintro ⟨⟩
      exact ht rfl
  | microservice =>
    cases space with
    | none => trivial
    | some space =>
      refine every_shuns_microservice ?_ _
      rintro rfl
      exact hm name rfl

theorem shuns_reconcile (r : ReconcileRequest) : (reconcile st r).Shuns ns tenant := by
  obtain ⟨kind, name, space⟩ := r
  have h : Chores st fun _ p => p.Every (Call.Shuns ns tenant) := chores_shuns
  cases kind with
  | inst => exact shuns_of_every (h.inst _)
  | pairing =>
    cases space with
    | none => trivial
    | some space => exact shuns_of_every (h.pairing ..)
  | tenant =>
    cases space with
    | none => trivial
    | some space => exact shuns_tenant ..
  | microservice =>
    cases space with
    | none => trivial
    | some space => exact shuns_microservice ..

theorem shuns_of_first {r : ReconcileRequest} (hr : r.kind = .microservice) {c : Call}
    {next : Except Error c.Answer → Program Outcome} (h : reconcile st r = .call c next)
    (a : Except Error c.Answer) (ha : c.Admits a) : (next a).Shuns ns tenant := by
  have hshuns : (reconcile st r).Shuns ns tenant := shuns_reconcile r
  obtain ⟨kind, name, space⟩ := r
  obtain rfl : kind = .microservice := hr
  cases space with
  | none => cases h
  | some space =>
    rw [h] at hshuns
    obtain ⟨rfl, -⟩ := Program.call.inj h
    refine hshuns.2 a ha ?_
    rcases a with e | (_ | m)
    · trivial
    · trivial
    · rintro ⟨⟩

end Reconcile
end TenantOperator
