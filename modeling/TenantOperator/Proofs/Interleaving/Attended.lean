import TenantOperator.Proofs.Interleaving.Deeds
import TenantOperator.Proofs.Interleaving.Revival
import TenantOperator.Proofs.Interruption.Converging
import TenantOperator.Proofs.Interruption.Resolver

/-! Deployments without their Service. A run makes sure of the Service before it makes the
Deployment, and another deletes the Deployment before it deletes the Service; only when two such
runs cross is a Deployment left alone. -/
namespace TenantOperator
open Program Store

/-- The order that reconciles keep: they make a Deployment when they have made sure of the Service
and have deleted no Deployment there, and they delete a Service when they have deleted the
Deployment. -/
def Deed.Attends (past : List Deed) : Deed → Prop
  | .filled .deployment key =>
    .filled .service key ∈ past ∧ .emptied .deployment key ∉ past
  | .emptied .service key => .emptied .deployment key ∈ past
  | _ => True

theorem Deed.attends_of_ne {k : Kind} {key : Key} (past : List Deed) {d : Deed}
    (hd : d = .filled k key ∨ d = .emptied k key) (hk : ¬Workload.Child k key) :
    d.Attends past := by
  rcases hd with rfl | rfl <;> cases k <;>
    first | trivial | exact absurd (Or.inl rfl) hk | exact absurd (Or.inr rfl) hk

namespace Program
variable {α β : Type} {past : List Deed}

abbrev Attends (Q : α → List Deed → Prop) (p : Program α) (past : List Deed) : Prop :=
  p.Heeds (fun past d => d.Attends past) Q past

theorem Within.attends {W : Kind → Key → Prop} {p : Program α} (h : p.Within W)
    (hW : ∀ k key, W k key → ¬Workload.Child k key) : p.Attends (fun _ _ => True) past := by
  refine heeds_of_every h fun c hc a d past' hd => ?_
  cases d with
  | filled k key =>
    exact Deed.attends_of_ne _ (Or.inl rfl) (hW k key (hc k key (Call.writes_of_deed? (Or.inl hd))))
  | emptied k key =>
    exact Deed.attends_of_ne _ (Or.inr rfl) (hW k key (hc k key (Call.writes_of_deed? (Or.inr hd))))

theorem attends_read_bind {p : Program α} {f : α → Program β} {Q : β → List Deed → Prop}
    (hp : p.Every Call.Reads) (hf : ∀ a, (f a).Attends Q past) : (p >>= f).Attends Q past :=
  heeds_bind (heeds_of_reads hp) fun a _ h => h ▸ hf a

end Program

theorem Bundle.Shared.not_child {ns t : String} {k : Kind} {key : Key} (h : Shared ns t k key) :
    ¬Workload.Child k key := by
  rcases h with ⟨rfl, -⟩ | ⟨rfl, -⟩ <;> simp [Workload.Child]

variable (st : Settings) {ns : String} {past : List Deed}

namespace Workload

theorem attends_synthesize (p : Pairing) (h : ∀ key, .emptied .deployment key ∉ past) :
    (synthesize p).Attends (fun _ _ => True) past := by
  unfold synthesize
  split
  · trivial
  · refine attends_read_bind (reads_get ..) fun d => ?_
    cases d with
    | some d => trivial
    | none =>
      refine attends_read_bind (reads_parent ..) fun t => ?_
      refine attends_read_bind (reads_parent ..) fun m => ?_
      refine attends_read_bind (reads_parent ..) fun i => ?_
      refine heeds_bind (heeds_ensureCreated (service i t m) trivial) ?_
      rintro _ _ rfl
      have hkey : (deployment i t m).key = (service i t m).key := rfl
      refine heeds_bind (heeds_ensureCreated (deployment i t m) ⟨by simp [hkey], ?_⟩) ?_
      · simpa using h _
      · exact fun _ _ _ => trivial

end Workload

namespace Teardown

theorem attends_clearPairing (name tenant : String) :
    (clearPairing st ns name tenant).Attends (fun _ _ => True) past := by
  refine heeds_bind ((within_syncTenant st ns tenant).attends fun _ _ => Bundle.Shared.not_child)
    fun _ _ _ => ?_
  refine heeds_bind (heeds_delete .deployment _ trivial) ?_
  rintro _ _ rfl
  refine heeds_bind (heeds_delete .service _ ?_) fun _ _ _ => trivial
  show Deed.emptied .deployment _ ∈ _
  simp

theorem attends_pairing (name : String) (tenant : Option String) :
    (pairing st ns name tenant).Attends (fun _ _ => True) past := by
  cases tenant with
  | some t => exact attends_clearPairing st name t
  | none =>
    refine attends_read_bind (reads_pairingTenant _) fun t => ?_
    cases t with
    | some t => exact attends_clearPairing st name t
    | none => trivial

theorem attends_clearAll (ps : List Pairing) :
    (clearAll st ns ps).Attends (fun _ _ => True) past := by
  induction ps generalizing past with
  | nil => trivial
  | cons p ps ih =>
    exact heeds_bind (heeds_delete .pairing _ trivial) fun _ _ _ =>
      heeds_bind (attends_pairing st ..) fun _ _ _ => ih

theorem attends_pairings (selector : Labels) :
    (pairings st ns selector).Attends (fun _ _ => True) past :=
  attends_read_bind (reads_list ..) fun _ => attends_clearAll st _

theorem attends_tenant (tenant : String) :
    (Teardown.tenant st ns tenant).Attends (fun _ _ => True) past := by
  have hbundle : (Bundle.deleteTenant ns tenant).Within (Bundle.Shared ns tenant) := by
    refine every_bind ((within_delete ..).imp fun _ _ => Or.inl) fun b => ?_
    cases b <;> trivial
  have htable : (Routing.delete ns tenant).Within (Bundle.Shared ns tenant) :=
    Routing.every_delete ns tenant ((within_delete ..).imp fun _ _ => Or.inr).1
  exact heeds_bind (attends_pairings st _) fun _ _ _ =>
    heeds_bind (hbundle.attends fun _ _ => Bundle.Shared.not_child) fun _ _ _ =>
    heeds_bind (htable.attends fun _ _ => Bundle.Shared.not_child) fun _ _ _ => trivial

end Teardown

namespace Reconcile

theorem not_child_of_pairing (k : Kind) (key : Key) (hk : k = .pairing) :
    ¬Workload.Child k key := by
  simp [hk, Workload.Child]

theorem within_tenants (ts : List Tenant) :
    (tenants st ns ts).Within fun k key => ¬Workload.Child k key := by
  induction ts with
  | nil => trivial
  | cons t ts ih =>
    have hsync := Teardown.within_syncTenant st ns t.name
    exact every_bind ((Cleaning.within_resolveTenant t).imp not_child_of_pairing) fun _ =>
      every_bind (hsync.imp fun _ _ => Bundle.Shared.not_child) fun _ => ih

theorem attends_live (p : Pairing) : (live st ns p).Attends (fun _ _ => True) [] := by
  rw [live_eq]
  refine attends_read_bind (every_ofExcept _) fun _ => attends_read_bind (reads_parent ..) fun _ =>
    heeds_bind (Workload.attends_synthesize p (by simp)) fun _ _ _ => ?_
  exact (within_announce st ns p).attends fun _ _ => Bundle.Shared.not_child

theorem attends_reconcile (r : ReconcileRequest) :
    (reconcile st r).Attends (fun _ _ => True) [] := by
  obtain ⟨kind, name, space⟩ := r
  cases kind with
  | inst =>
    show (inst _).Attends _ _
    rw [inst_eq]
    refine attends_read_bind (reads_get ..) fun i => ?_
    cases i with
    | none => trivial
    | some i =>
      refine (within_made _ i).attends fun k _ hk => ?_
      rcases hk with rfl | rfl <;> simp [Workload.Child]
  | tenant =>
    cases space with
    | none => trivial
    | some ns =>
      refine attends_read_bind (reads_get ..) fun t => ?_
      cases t with
      | none => exact heeds_bind (Teardown.attends_tenant st name) fun _ _ _ => trivial
      | some t =>
        exact heeds_bind ((Cleaning.within_resolveTenant t).attends not_child_of_pairing)
          fun _ _ _ => trivial
  | microservice =>
    cases space with
    | none => trivial
    | some ns =>
      refine attends_read_bind (reads_get ..) fun m => ?_
      cases m with
      | none => exact heeds_bind (Teardown.attends_pairings st _) fun _ _ _ => trivial
      | some m =>
        refine attends_read_bind (every_ofExcept _) fun _ =>
          attends_read_bind (reads_list ..) fun ts => ?_
        exact heeds_bind ((within_tenants st ts).attends fun _ _ => id) fun _ _ _ => trivial
  | pairing =>
    cases space with
    | none => trivial
    | some ns =>
      show (pairing st ns _).Attends _ _
      rw [pairing_eq]
      refine attends_read_bind (reads_get ..) fun p => ?_
      cases p with
      | none => exact heeds_bind (Teardown.attends_pairing st ..) fun _ _ _ => trivial
      | some p => exact attends_live st p

end Reconcile

namespace Pool
variable {ι : Type} [DecidableEq ι]

/-- One run makes sure of the Service and then of the Deployment, another deletes the Deployment and
then the Service. The Deployment is made after the other's deletion and stays, the Service is
deleted after it was made sure of and stays away. -/
structure Crossing (l : List (ι × Deed)) (key : Key) (i j : ι)
    (serve deploy undeploy unserve : Nat) : Prop where
  served : l[serve]? = some (i, .filled .service key)
  deployed : Stands l deploy i (.filled .deployment key) (.emptied .deployment key)
  undeployed : l[undeploy]? = some (j, .emptied .deployment key)
  unserved : Stands l unserve j (.emptied .service key) (.filled .service key)
  order : serve < deploy ∧ undeploy < unserve ∧ undeploy < deploy ∧ serve < unserve

omit [DecidableEq ι] in
theorem not_stands_of_stands {l : List (ι × Deed)} {n m : Nat} {i j : ι} {d d' : Deed}
    (hd : d ≠ d') (h : Stands l n i d d') : ¬Stands l m j d' d := by
  intro h'
  rcases Nat.lt_trichotomy n m with hlt | rfl | hlt
  · exact h.2 m j hlt h'.1
  · exact hd (congrArg Prod.snd (Option.some.inj (h.1.symm.trans h'.1)))
  · exact h'.2 n i hlt h.1

omit [DecidableEq ι] in
theorem Stands.lt {l : List (ι × Deed)} {n m : Nat} {i j : ι} {d d' : Deed} (hd : d ≠ d')
    (h : Stands l n i d d') (hm : l[m]? = some (j, d')) : m < n := by
  rcases Nat.lt_trichotomy m n with hlt | rfl | hlt
  · exact hlt
  · exact absurd (congrArg Prod.snd (Option.some.inj (h.1.symm.trans hm))) hd
  · exact absurd hm (h.2 m j hlt)

/-- When both runs kept their order, a Deployment that stays and a Service that stays away tell of a
crossing. -/
theorem exists_crossing {l : List (ι × Deed)} {key : Key}
    (hallowed : ∀ (n : Nat) (i : ι) (d : Deed), l[n]? = some (i, d) →
      d.Attends (deedsOf i (l.take n)))
    {deploy unserve : Nat} {i j : ι}
    (hdeploy : Stands l deploy i (.filled .deployment key) (.emptied .deployment key))
    (hunserve : Stands l unserve j (.emptied .service key) (.filled .service key)) :
    ∃ serve undeploy, i ≠ j ∧ Crossing l key i j serve deploy undeploy unserve := by
  obtain ⟨hserved, hkept⟩ := hallowed _ _ _ hdeploy.1
  obtain ⟨serve, hserve, hserved⟩ := exists_of_mem_deedsOf hserved
  obtain ⟨undeploy, hundeploy, hundeployed⟩ := exists_of_mem_deedsOf (hallowed _ _ _ hunserve.1)
  have hbefore : undeploy < deploy := hdeploy.lt (by simp) hundeployed
  have hafter : serve < unserve := hunserve.lt (by simp) hserved
  refine ⟨serve, undeploy, ?_, hserved, hdeploy, hundeployed, hunserve, hserve, hundeploy, hbefore,
    hafter⟩
  rintro rfl
  exact hkept (mem_deedsOf hbefore hundeployed)

/-- Reconciles run among each other, any of them may fail at any call or get no more turns, and
others write no children. A Deployment that is there has its Service, except where the runs of a
synthesis and a teardown of the pairing cross. -/
theorem unattended_iff (st : Settings) {s : Store} (hs : s.Reached)
    (hstart : ∀ key, (s.find? .deployment key).isSome → (s.find? .service key).isSome)
    (requests : ι → ReconcileRequest) {es : List (Happening ι)}
    (hcall : ∀ c, .event (.call c) ∈ es → ∀ k key, c.Writes k key → ¬Workload.Child k key)
    (key : Key) :
    (((ofRequests st requests s).history es).store.find? .deployment key).isSome ∧
        ((ofRequests st requests s).history es).store.find? .service key = none ↔
      ∃ i j serve deploy undeploy unserve, i ≠ j ∧
        Crossing ((ofRequests st requests s).deeds es) key i j serve deploy undeploy unserve := by
  have hheeds : Heeding (fun past d => d.Attends past) (ofRequests st requests s) [] :=
    ⟨hs.filed, fun i => Reconcile.attends_reconcile st _, fun n i d h => by simp at h⟩
  have hallowed := (hheeds.history es).allowed
  have hspared : ∀ k, Workload.Child k key → ∀ c, .event (.call c) ∈ es → ¬c.Writes k key :=
    fun k hk c hc hw => hcall c hc k key hw hk
  have hdeployment :=
    last_deed (P := ofRequests st requests s) es (hspared .deployment (Or.inr rfl))
  have hservice := last_deed (P := ofRequests st requests s) es (hspared .service (Or.inl rfl))
  generalize (ofRequests st requests s).deeds es = l at *
  constructor
  · rintro ⟨hd, hs⟩
    rcases hservice with ⟨hno, hsame⟩ | ⟨-, hsome⟩ | ⟨⟨unserve, j, hunserve⟩, -⟩
    · -- No deed was done to the Service, so no Deployment was made and none was there.
      exfalso
      rcases hdeployment with ⟨-, hdsame⟩ | ⟨⟨deploy, i, hdeploy⟩, -⟩ | ⟨-, hnone⟩
      · rw [hs] at hsame
        cases hsame.2 (hstart key (hdsame.1 hd))
      · obtain ⟨serve, -, hserve⟩ := exists_of_mem_deedsOf (hallowed _ _ _ hdeploy.1).1
        exact (hno _ (List.mem_of_getElem? hserve)).1 rfl
      · rw [hnone] at hd
        cases hd
    · rw [hs] at hsome
      cases hsome
    · rcases hdeployment with ⟨hno, -⟩ | ⟨⟨deploy, i, hdeploy⟩, -⟩ | ⟨-, hnone⟩
      · obtain ⟨undeploy, -, hundeployed⟩ := exists_of_mem_deedsOf (hallowed _ _ _ hunserve.1)
        exact absurd rfl (hno _ (List.mem_of_getElem? hundeployed)).2
      · obtain ⟨serve, undeploy, hij, hcross⟩ := exists_crossing hallowed hdeploy hunserve
        exact ⟨i, j, serve, deploy, undeploy, unserve, hij, hcross⟩
      · rw [hnone] at hd
        cases hd
  · rintro ⟨i, j, serve, deploy, undeploy, unserve, -, hcross⟩
    constructor
    · rcases hdeployment with ⟨hno, -⟩ | ⟨-, hsome⟩ | ⟨⟨n, i', hn⟩, -⟩
      · exact absurd rfl (hno _ (List.mem_of_getElem? hcross.deployed.1)).1
      · exact hsome
      · exact absurd hn (not_stands_of_stands nofun hcross.deployed)
    · rcases hservice with ⟨hno, -⟩ | ⟨⟨n, i', hn⟩, -⟩ | ⟨-, hnone⟩
      · exact absurd rfl (hno _ (List.mem_of_getElem? hcross.unserved.1)).2
      · exact absurd hn (not_stands_of_stands nofun hcross.unserved)
      · exact hnone

section crossing

def pairingAndTenant : Bool → ReconcileRequest
  | false => ⟨.pairing, .inSpace "dc1" (Naming.pairing "a" "c")⟩
  | true => ⟨.tenant, .inSpace "dc1" "a"⟩

/-- The pairing's reconcile has made the Service; the tenant is deleted and torn down, and then the
Deployment is made. -/
def tornBetween : List (Happening Bool) :=
  List.replicate 7 (.event (.run false)) ++
    .event (.call (.delete .tenant (.inSpace "dc1" "a"))) ::
      (List.replicate 18 (.event (.run true)) ++ [.event (.run false)])

theorem eq_of_mem_tornBetween {c : Call} (h : .event (.call c) ∈ tornBetween) :
    c = .delete .tenant (.inSpace "dc1" "a") := by
  simpa [tornBetween] using h

theorem attended_paired (key : Key) (h : (paired.find? .deployment key).isSome) :
    (paired.find? .service key).isSome := by
  cases h

/-- The Deployment is left without its Service, so two runs have crossed. -/
theorem crossing_tornBetween :
    ∃ i j serve deploy undeploy unserve, i ≠ j ∧
      Crossing ((ofRequests {} pairingAndTenant paired).deeds tornBetween)
        (.inSpace "dc1" (Naming.pairing "a" "c")) i j serve deploy undeploy unserve := by
  refine (unattended_iff {} reached_paired attended_paired pairingAndTenant
    (fun c hc k key hw => ?_) _).1 ⟨rfl, rfl⟩
  rw [eq_of_mem_tornBetween hc] at hw
  obtain ⟨rfl, -⟩ := Call.writes_delete.1 hw
  rintro (h | h) <;> cases h

/-- The Deployment of a tenant that was deleted meanwhile is made after its Service is gone. -/
theorem not_forall_attended :
    ¬∀ (ι : Type) [DecidableEq ι] (st : Settings) (s : Store) (requests : ι → ReconcileRequest)
      (es : List (Happening ι)) (key : Key), s.Reached → s.faults = [] → s.Shaped →
      (∀ key, (s.find? .deployment key).isSome → (s.find? .service key).isSome) →
      Function.Injective requests →
      (∀ c, .event (.call c) ∈ es → ∃ k key, c = .delete k key ∧
        (k = .tenant ∨ k = .microservice ∨ k = .pairing)) →
      (((ofRequests st requests s).history es).store.find? .deployment key).isSome →
      (((ofRequests st requests s).history es).store.find? .service key).isSome := by
  intro h
  have hinjective : Function.Injective pairingAndTenant := by
    intro i j hij
    cases i <;> cases j <;> first | rfl | cases hij
  have hservice := h Bool {} paired pairingAndTenant tornBetween
    (.inSpace "dc1" (Naming.pairing "a" "c")) reached_paired rfl shaped_paired attended_paired
    hinjective (fun c hc => ⟨_, _, eq_of_mem_tornBetween hc, Or.inl rfl⟩) rfl
  cases hservice

end crossing

end Pool
end TenantOperator
