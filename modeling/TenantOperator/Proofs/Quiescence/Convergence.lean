import TenantOperator.Proofs.Quiescence.Served

/-! Backlogs of one instance that only grow. Each pairing waits for its request to be processed, or
it has got all that derives from it, unless its request was processed before there was an instance.
-/
namespace TenantOperator
open Program Store

variable {inst : String} {s : Store} {key : Key}

theorem Reconcile.grown_reconcile (st : Settings) (hs : s.Intact inst) {q : ReconcileRequest}
    (hq : (s.find? q.kind.kind q.key).isSome) : Grown inst s ((reconcile st q).run s).2 := by
  obtain ⟨kind, key⟩ := q
  obtain ⟨r, hr⟩ := Option.isSome_iff_exists.1 hq
  cases kind with
  | inst => exact grown_inst key hs
  | tenant =>
    have hns := (hs.tenants key r hr).1
    simp only [reconcile, inSpace, hns]
    exact grown_tenant st hs hr
  | microservice =>
    have hns := (hs.microservices key r hr).1
    simp only [reconcile, inSpace, hns]
    exact grown_microservice st hs hr
  | pairing =>
    have hp : s.find? .pairing key = some r := hr
    have hns := (hs.pairings key r hp).2.1
    simp only [reconcile, inSpace, hns, pairing_eq]
    rw [run_bind_of_ok (hs.calm.run_get key), hp]
    exact (run_live st hs hp).1

theorem Store.Calm.perform_create (hs : s.Calm) {k : Kind} (r : Resource k) :
    (s.perform (.create k r)).2 = s ∨ (s.perform (.create k r)).2 = s.ensured r := by
  rw [hs.perform, Store.answer]
  cases hn : r.metadata.name with
  | none =>
    left
    simp [Store.create, hn]
  | some n =>
    rw [create_of_named hn, Store.ensured]
    split
    · exact Or.inl rfl
    · exact Or.inr rfl

theorem Move.Admissible.fits {k : Kind} {r : Resource k}
    (h : (Move.create k r).Admissible inst) : Fits inst s k r := by
  cases k with
  | tenant => exact h
  | microservice => exact ⟨h.1, h.2.1⟩
  | pairing => exact h.elim
  | deployment => exact h.elim
  | _ => trivial

namespace Backlog
variable {st : Settings} {S : Backlog}

/-- Whatever is requested exists in an intact store. -/
structure Tended (inst : String) (S : Backlog) : Prop where
  intact : S.store.Intact inst
  requested : ∀ q ∈ S.pending, (S.store.find? q.kind.kind q.key).isSome

/-- A pairing of that name waits for its request to be processed, or it is served. -/
def Awaits (inst : String) (key : Key) (S : Backlog) : Prop :=
  ∀ p, S.store.find? .pairing key = some p →
    ⟨.pairing, key⟩ ∈ S.pending ∨ S.store.Serves inst key p

theorem step_process {q : ReconcileRequest} (hq : q ∈ S.pending) :
    S.step st (.process q) =
      ⟨((reconcile st q).run S.store).2, remaining S.pending q ((reconcile st q).run S.store).1 +
        raised S.store ((reconcile st q).run S.store).2⟩ := if_pos hq

theorem step_process_of_notMem {q : ReconcileRequest} (hq : q ∉ S.pending) :
    S.step st (.process q) = S := if_neg hq

theorem Tended.grown (h : S.Tended inst) {m : Move} (hm : m.Admissible inst) :
    Grown inst S.store (S.step st m).store := by
  cases m with
  | create k r =>
    show Grown inst S.store (S.store.perform (.create k r)).2
    rcases h.intact.calm.perform_create r with he | he <;> rw [he]
    · exact .refl inst S.store
    · exact .ensured hm.fits
  | process q =>
    by_cases hq : q ∈ S.pending
    · rw [step_process hq]
      exact Reconcile.grown_reconcile st h.intact (h.requested q hq)
    · rw [step_process_of_notMem hq]
      exact .refl inst S.store

theorem mem_pending_step {m : Move} {q : ReconcileRequest} (hq : q ∈ (S.step st m).pending) :
    q ∈ S.pending ∨ q ∈ raised S.store (S.step st m).store := by
  cases m with
  | create k r => exact Multiset.mem_add.1 hq
  | process q' =>
    by_cases hq' : q' ∈ S.pending
    · rw [step_process hq'] at hq ⊢
      exact (Multiset.mem_add.1 hq).imp mem_of_mem_remaining id
    · rw [step_process_of_notMem hq'] at hq
      exact Or.inl hq

theorem mem_pending_of_ne {m : Move} {q : ReconcileRequest} (hq : q ∈ S.pending)
    (hne : m ≠ .process q) : q ∈ (S.step st m).pending := by
  cases m with
  | create k r => exact Multiset.mem_add.2 (Or.inl hq)
  | process q' =>
    by_cases hq' : q' ∈ S.pending
    · rw [step_process hq']
      refine Multiset.mem_add.2 (Or.inl (mem_remaining_of_ne hq ?_ _))
      rintro rfl
      exact hne rfl
    · rwa [step_process_of_notMem hq']

theorem mem_pending_of_raised {m : Move} {q : ReconcileRequest} (hs : S.store.Filed)
    (hq : q ∈ raised S.store (S.step st m).store) : q ∈ (S.step st m).pending := by
  cases m with
  | create k r => exact Multiset.mem_add.2 (Or.inr hq)
  | process q' =>
    by_cases hq' : q' ∈ S.pending
    · rw [step_process hq'] at hq ⊢
      exact Multiset.mem_add.2 (Or.inr hq)
    · -- Nothing is new.
      rw [step_process_of_notMem hq'] at hq
      obtain ⟨hsome, hnone⟩ := (mem_raised hs).1 hq
      rw [hnone] at hsome
      cases hsome

theorem Tended.step (h : S.Tended inst) {m : Move} (hm : m.Admissible inst) :
    (S.step st m).Tended inst := by
  have hg : Grown inst S.store (S.step st m).store := h.grown hm
  have hs := hg.intact h.intact
  refine ⟨hs, fun q hq => ?_⟩
  rcases mem_pending_step hq with hold | hnew
  · have hkind : q.kind.kind ≠ .configMap ∧ q.kind.kind ≠ .ingress := by
      cases q.kind <;> simp [EntityKind.kind]
    exact hg.isSome (h.requested q hold) hkind
  · exact ((mem_raised hs.calm.filed).1 hnew).1

/-- The one step that takes a pairing's request serves the pairing if there is an instance. -/
theorem Awaits.step (ha : S.Awaits inst key) (h : S.Tended inst) {m : Move}
    (hm : m.Admissible inst)
    (hinst : m = .process ⟨.pairing, key⟩ → ⟨.pairing, key⟩ ∈ S.pending →
      (S.store.find? .inst (.clusterWide inst)).isSome) : (S.step st m).Awaits inst key := by
  intro p hp
  have hg : Grown inst S.store (S.step st m).store := h.grown hm
  cases hold : S.store.find? .pairing key with
  | none =>
    -- The pairing is new, and so is its request.
    have hsome : ((S.step st m).store.find? .pairing key).isSome := by
      rw [hp]
      rfl
    have hraised : (⟨.pairing, key⟩ : ReconcileRequest) ∈ raised S.store (S.step st m).store :=
      (mem_raised (hg.intact h.intact).calm.filed).2 ⟨hsome, hold⟩
    exact Or.inl (mem_pending_of_raised h.intact.calm.filed hraised)
  | some p' =>
    obtain rfl : p' = p := Option.some.inj
      ((hg.kept _ _ p' (by simp) (by simp) hold).symm.trans hp)
    rcases ha p' hold with hpending | hserves
    · by_cases he : m = .process ⟨.pairing, key⟩
      · subst he
        right
        obtain ⟨-, hserves⟩ := Reconcile.run_live st h.intact hold
        have hns := (h.intact.pairings key p' hold).2.1
        have hrun : (reconcile st ⟨.pairing, key⟩).run S.store =
            (Reconcile.live st inst p').run S.store := by
          simp only [reconcile, Reconcile.inSpace, hns, Reconcile.pairing_eq]
          rw [run_bind_of_ok (h.intact.calm.run_get key), hold]
        rw [step_process hpending, hrun]
        exact (hserves (hinst rfl hpending)).2
      · exact Or.inl (mem_pending_of_ne hpending he)
    · exact Or.inr (hserves.grown h.intact hold hg)

/-- The request of a pairing is only processed when there is an instance. -/
def Timely (st : Settings) (inst : String) (key : Key) (S : Backlog) (h : List Move) : Prop :=
  ∀ before after, h = before ++ .process ⟨.pairing, key⟩ :: after →
    ⟨.pairing, key⟩ ∈ (S.exec st before).pending →
      ((S.exec st before).store.find? .inst (.clusterWide inst)).isSome

theorem timely_nil : Timely st inst key S [] := fun before after he => by simp at he

theorem timely_cons {m : Move} {l : List Move} :
    Timely st inst key S (m :: l) ↔
      (m = .process ⟨.pairing, key⟩ → ⟨.pairing, key⟩ ∈ S.pending →
        (S.store.find? .inst (.clusterWide inst)).isSome) ∧ Timely st inst key (S.step st m) l := by
  constructor
  · refine fun h =>
      ⟨fun he hpending => h [] l (by rw [he]; rfl) hpending, fun before after he => ?_⟩
    exact h (m :: before) after (by rw [he]; rfl)
  · rintro ⟨hm, hl⟩ before after he
    cases before with
    | nil =>
      obtain ⟨he, -⟩ := List.cons.inj he
      exact hm he
    | cons m' before =>
      obtain ⟨rfl, htail⟩ := List.cons.inj he
      exact hl before after htail

theorem Awaits.exec (ha : S.Awaits inst key) (h : S.Tended inst) {l : List Move}
    (hl : ∀ m ∈ l, m.Admissible inst) (ht : Timely st inst key S l) :
    (S.exec st l).Awaits inst key := by
  induction l generalizing S with
  | nil => exact ha
  | cons m l ih =>
    have hm := hl m List.mem_cons_self
    obtain ⟨hinst, ht⟩ := timely_cons.1 ht
    exact ih (ha.step h hm hinst) (h.step hm) (fun m' hm' => hl m' (List.mem_cons_of_mem m hm')) ht

theorem tended_start (inst : String) : start.Tended inst where
  intact :=
    { calm := ⟨Store.Reached.fresh.filed, rfl⟩
      tenants := fun key t ht => by cases ht
      microservices := fun key m hm => by cases hm
      pairings := fun key p hp => by cases hp
      children := fun key hd => by cases hd }
  requested q hq := absurd hq (Multiset.notMem_zero q)

/-- Valid entities and templates of one instance are made and requests are processed in any order.
Once no request is pending, everything that derives from a pairing is in place, unless the request
of the pairing was processed before there was an instance. -/
theorem serves_of_quiet (st : Settings) {l : List Move} (hl : ∀ m ∈ l, m.Admissible inst)
    (hquiet : (start.exec st l).pending = 0) {p : Pairing}
    (hp : (start.exec st l).store.find? .pairing key = some p)
    (ht : Timely st inst key start l) : (start.exec st l).store.Serves inst key p := by
  have hnone : start.Awaits inst key := fun p hp => by cases hp
  rcases hnone.exec (tended_start inst) hl ht p hp with hpending | hserves
  · rw [hquiet] at hpending
    exact absurd hpending (Multiset.notMem_zero _)
  · exact hserves

section order

def bareInstanceTemplate : InstanceTemplate where
  metadata := { name := some "base" }
  content := { configuration := .empty }

def pairingOfC : ReconcileRequest := ⟨.pairing, .inSpace "dc1" (Naming.pairing "a" "c")⟩

/-- The microservice is reconciled twice, since its template comes late, and the instance just in
time for the pairing. -/
def lateTemplates : List Move :=
  [.create .tenant (Matrix.bareTenant "a"), .process ⟨.tenant, .inSpace "dc1" "a"⟩,
    .create .microservice (Matrix.bareMicroservice "c"),
    .process ⟨.microservice, .inSpace "dc1" "c"⟩,
    .create .microserviceTemplate Matrix.bareTemplate, .create .inst Matrix.bareInstance,
    .process ⟨.microservice, .inSpace "dc1" "c"⟩, .process ⟨.inst, .clusterWide "dc1"⟩,
    .process pairingOfC, .create .instTemplate bareInstanceTemplate,
    .process ⟨.inst, .clusterWide "dc1"⟩]

theorem admissible_lateTemplates : ∀ m ∈ lateTemplates, m.Admissible "dc1" := by
  simp only [lateTemplates, List.forall_mem_cons]
  exact ⟨⟨rfl, by decide⟩, trivial, ⟨rfl, by decide, rfl⟩, trivial, rfl, ⟨rfl, rfl, rfl⟩, trivial,
    trivial, trivial, rfl, trivial, by simp⟩

theorem serves_lateTemplates : (start.exec {} lateTemplates).store.Serves "dc1" pairingOfC.key
    ((Pairing.forPair "dc1" "a" "c" .empty).withVersion (some "5")) := by
  have ht : Timely {} "dc1" pairingOfC.key start lateTemplates := by
    simp only [lateTemplates, timely_cons]
    exact ⟨nofun, nofun, nofun, nofun, nofun, nofun, nofun, nofun, fun _ _ => rfl, nofun, nofun,
      timely_nil⟩
  exact serves_of_quiet {} admissible_lateTemplates rfl rfl ht

/-- The instance comes last, when the request of the pairing has been dropped. -/
def lateInstance : List Move :=
  [.create .microserviceTemplate Matrix.bareTemplate,
    .create .microservice (Matrix.bareMicroservice "c"),
    .create .tenant (Matrix.bareTenant "a"), .process ⟨.tenant, .inSpace "dc1" "a"⟩,
    .process ⟨.microservice, .inSpace "dc1" "c"⟩, .process pairingOfC,
    .create .instTemplate bareInstanceTemplate, .create .inst Matrix.bareInstance,
    .process ⟨.inst, .clusterWide "dc1"⟩]

/-- Not every pairing is served once no request is pending. -/
theorem not_forall_serves :
    ¬∀ (st : Settings) (inst : String) (l : List Move), (∀ m ∈ l, m.Admissible inst) →
      (start.exec st l).pending = 0 →
      ((start.exec st l).store.find? .inst (.clusterWide inst)).isSome →
      (∀ key i, (start.exec st l).store.find? .inst key = some i →
        ((start.exec st l).store.find? .instTemplate
          (.clusterWide i.content.configurationId)).isSome) →
      (∀ key m, (start.exec st l).store.find? .microservice key = some m →
        ((start.exec st l).store.find? .microserviceTemplate
          (.clusterWide m.content.configurationId)).isSome) →
      ∀ key p, (start.exec st l).store.find? .pairing key = some p →
        (start.exec st l).store.Serves inst key p := by
  intro h
  have hl : ∀ m ∈ lateInstance, m.Admissible "dc1" := by
    simp only [lateInstance, List.forall_mem_cons]
    exact ⟨rfl, ⟨rfl, by decide, rfl⟩, ⟨rfl, by decide⟩, trivial, trivial, trivial, rfl,
      ⟨rfl, rfl, rfl⟩, trivial, by simp⟩
  have hinst : ∀ key i, (start.exec {} lateInstance).store.find? .inst key = some i →
      i.content.configurationId = "base" := by
    have hall : ∀ e ∈ (start.exec {} lateInstance).store.instances.entries,
        e.2.content.configurationId = "base" := by decide
    exact fun key i hi => hall _ (SortedMap.find?_eq_some_iff.1 hi)
  have hmicroservice : ∀ key m,
      (start.exec {} lateInstance).store.find? .microservice key = some m →
      m.content.configurationId = "base" := by
    have hall : ∀ e ∈ (start.exec {} lateInstance).store.microservices.entries,
        e.2.content.configurationId = "base" := by decide
    exact fun key m hm => hall _ (SortedMap.find?_eq_some_iff.1 hm)
  have hserves := h {} "dc1" lateInstance hl rfl rfl (fun key i hi => by rw [hinst key i hi]; rfl)
    (fun key m hm => by rw [hmicroservice key m hm]; rfl) pairingOfC.key
    ((Pairing.forPair "dc1" "a" "c" .empty).withVersion (some "4")) rfl
  cases hserves.deployment

end order

end Backlog

end TenantOperator
