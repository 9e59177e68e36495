import TenantOperator.Proofs.Frame.Footprint
import TenantOperator.Proofs.Interleaving.Resolvers
import TenantOperator.Proofs.Interleaving.Revival

/-! Several runs that synthesize one pairing. Whoever comes first makes a child, the Service before
the Deployment, and the others find it; so each child is made once. -/
namespace TenantOperator
open Program Store

namespace Workload
variable {s₀ s s' : Store} {p : Pairing} {ns : String}
  {i : Instance} {t : Tenant} {m : Microservice}

/-- The objects that the children of a pairing are made from. -/
structure Parents (s : Store) (ns : String) (p : Pairing) (i : Instance) (t : Tenant)
    (m : Microservice) : Prop where
  inst : s.find? .inst (.clusterWide ns) = some i
  tenant : s.find? .tenant (.inSpace ns p.content.tenantId) = some t
  microservice : s.find? .microservice (.inSpace ns p.content.microserviceId) = some m

theorem Parents.key_eq (hs : s.Filed) (hp : p.Shaped) (hns : p.metadata.ns = some ns)
    (h : Parents s ns p i t m) : (service i t m).key = p.key ∧ (deployment i t m).key = p.key := by
  have hi : i.name = ns := congrArg Key.name (hs h.inst)
  have ht : t.name = p.content.tenantId := congrArg Key.name (hs h.tenant)
  have hm : m.name = p.content.microserviceId := congrArg Key.name (hs h.microservice)
  have hkey : (metadata i.name t.name m.name).key = p.key := by
    rw [hp.key_eq hns, hi, ht, hm]
    rfl
  exact ⟨hkey, hkey⟩

/-- From `s` to `s'` the pairing got children that `s₀` has the parents of, no Deployment without a
Service; parents and children that were there stay. -/
structure Bears (s₀ : Store) (ns : String) (p : Pairing) (s s' : Store) : Prop where
  parents : ∀ k key, k = .inst ∨ k = .tenant ∨ k = .microservice →
    s'.find? k key = s.find? k key
  kept : ∀ k key r, k = .service ∨ k = .deployment → s.find? k key = some r →
    s'.find? k key = some r
  service : ∀ r, s'.find? .service p.key = some r → s.find? .service p.key = some r ∨
    ∃ i t m v, Parents s₀ ns p i t m ∧ r = (service i t m).withVersion v
  deployment : ∀ r, s'.find? .deployment p.key = some r → s.find? .deployment p.key = some r ∨
    (s'.find? .service p.key).isSome ∧
      ∃ i t m v, Parents s₀ ns p i t m ∧ r = (deployment i t m).withVersion v

theorem Bears.isSome (h : Bears s₀ ns p s s') {k : Kind} (hk : k = .service ∨ k = .deployment)
    {key : Key} (hsome : (s.find? k key).isSome) : (s'.find? k key).isSome := by
  obtain ⟨r, hr⟩ := Option.isSome_iff_exists.1 hsome
  rw [h.kept k key r hk hr]
  rfl

theorem rely_bears (s₀ : Store) (ns : String) (p : Pairing) : Rely (Bears s₀ ns p) where
  faults s l := by
    refine ⟨fun _ _ _ => find?_setFaults .., fun k key r _ hr => ?_, fun r hr => Or.inl ?_,
      fun r hr => Or.inl ?_⟩
    · rwa [find?_setFaults]
    · rwa [find?_setFaults] at hr
    · rwa [find?_setFaults] at hr
  trans s₁ s₂ s₃ h h' := by
    refine ⟨fun k key hk => (h'.parents k key hk).trans (h.parents k key hk),
      fun k key r hk hr => h'.kept k key r hk (h.kept k key r hk hr),
      fun r hr => (h'.service r hr).elim (h.service r) Or.inr, fun r hr => ?_⟩
    rcases h'.deployment r hr with hr | hnew
    · exact (h.deployment r hr).imp_right fun hnew => ⟨h'.isSome (Or.inl rfl) hnew.1, hnew.2⟩
    · exact Or.inr hnew

theorem around_bears (s₀ : Store) (ns : String) (p : Pairing) :
    Around (Bears s₀ ns p) (Bears s₀ ns p) (Bears s₀ ns p) where
  rely := rely_bears ..
  total := rely_bears ..
  others _ _ h := h
  own _ _ h := h
  faults := (rely_bears s₀ ns p).faults

theorem Bears.of_agreeOff (h : AgreeOff (fun k _ => k ≠ .inst ∧ k ≠ .tenant ∧ k ≠ .microservice ∧
    k ≠ .service ∧ k ≠ .deployment) s s') : Bears s₀ ns p s s' where
  parents k key hk := h k key (by rcases hk with rfl | rfl | rfl <;> simp)
  kept k key r hk hr := by rwa [h k key (by rcases hk with rfl | rfl <;> simp)]
  service r hr := Or.inl (by rwa [h _ _ (by simp)] at hr)
  deployment r hr := Or.inl (by rwa [h _ _ (by simp)] at hr)

theorem Bears.put_service (h : Parents s₀ ns p i t m)
    (hnone : s.find? .service p.key = none) :
    Bears s₀ ns p s (s.put p.key (Workload.service i t m)) where
  parents k key hk := find?_put_of_ne s (by rcases hk with rfl | rfl | rfl <;> simp) _
  kept k key r hk hr := by
    rw [find?_put_of_ne s _ _, hr]
    rintro ⟨rfl, rfl⟩
    rw [hnone] at hr
    cases hr
  service r hr := by
    rw [find?_put_self] at hr
    cases hr
    exact Or.inr ⟨i, t, m, _, h, rfl⟩
  deployment r hr := Or.inl (by rwa [find?_put_of_ne s (by simp)] at hr)

theorem Bears.put_deployment (h : Parents s₀ ns p i t m)
    (hservice : (s.find? .service p.key).isSome) (hnone : s.find? .deployment p.key = none) :
    Bears s₀ ns p s (s.put p.key (Workload.deployment i t m)) where
  parents k key hk := find?_put_of_ne s (by rcases hk with rfl | rfl | rfl <;> simp) _
  kept k key r hk hr := by
    rw [find?_put_of_ne s _ _, hr]
    rintro ⟨rfl, rfl⟩
    rw [hnone] at hr
    cases hr
  service r hr := Or.inl (by rwa [find?_put_of_ne s (by simp)] at hr)
  deployment r hr := by
    rw [find?_put_self] at hr
    cases hr
    refine Or.inr ⟨?_, i, t, m, _, h, rfl⟩
    rwa [find?_put_of_ne s (by simp)]

theorem waits_children (hs : s₀.Filed) (hp : p.Shaped) (hns : p.metadata.ns = some ns)
    {i : Instance} {t : Tenant} {m : Microservice} (hpar : Parents s₀ ns p i t m)
    (s : Store) (x : Synthesis) :
    (ensureCreated (service i t m) >>= fun _ => ensureCreated (deployment i t m) >>= fun _ =>
      pure x).Waits (Bears s₀ ns p) (Bears s₀ ns p) (fun _ s' =>
        (s'.find? .service p.key).isSome ∧ (s'.find? .deployment p.key).isSome) s := by
  have h := around_bears s₀ ns p
  obtain ⟨hskey, hdkey⟩ := hpar.key_eq hs hp hns
  have hservice := waits_ensureCreated (s := s) h (r := service i t m)
    (n := Naming.pairing t.name m.name) rfl fun s' _ hnone => by
      rw [hskey] at hnone ⊢
      exact .put_service hpar hnone
  refine waits_bind hservice ?_
  rintro _ s₁ - ⟨-, hs₁⟩
  rw [hskey] at hs₁
  have hdeployment := waits_ensureCreated (s := s₁) h (r := deployment i t m)
    (n := Naming.pairing t.name m.name) rfl fun s' hr hnone => by
      rw [hdkey] at hnone ⊢
      exact .put_deployment hpar (hr.isSome (Or.inl rfl) hs₁) hnone
  refine waits_bind hdeployment ?_
  rintro _ s₂ - ⟨hf₂, hs₂⟩
  rw [hdkey] at hs₂
  exact waits_pure ⟨hf₂.isSome (Or.inl rfl) hs₁, hs₂⟩

/-- Among others of its kind, a run that ends well finds both children or makes them. -/
theorem waits_synthesize (hs : s₀.Filed) (hp : p.Shaped) (hns : p.metadata.ns = some ns)
    (hstart : (s₀.find? .deployment p.key).isSome → (s₀.find? .service p.key).isSome) :
    (synthesize p).Waits (Bears s₀ ns p) (Bears s₀ ns p) (fun _ s' =>
      (s'.find? .service p.key).isSome ∧ (s'.find? .deployment p.key).isSome) s₀ := by
  have h := around_bears s₀ ns p
  have hkey : p.key = .inSpace ns p.name := congrArg (Key.mk p.name) hns
  simp only [synthesize, hns, ← hkey]
  refine waits_bind (Q := fun d s' => d = s'.find? .deployment p.key ∧ Bears s₀ ns p s₀ s') ?_ ?_
  · exact waits_of_acts h.rely fun s' _ hr => acts_get (h.faults s') ⟨rfl, hr⟩
  rintro d s₁ - ⟨hd, h₁⟩
  cases d with
  | some d =>
    refine waits_pure ⟨?_, by rw [← hd]; rfl⟩
    rcases h₁.deployment d hd.symm with hold | hnew
    · exact h₁.isSome (Or.inl rfl) (hstart (by rw [hold]; rfl))
    · exact hnew.1
  | none =>
    refine waits_bind (waits_parent h) ?_
    rintro t s₂ - ⟨ht, hf₂⟩
    have h₂ := h.total.trans h₁ hf₂
    refine waits_bind (waits_parent h) ?_
    rintro m s₃ - ⟨hm, hf₃⟩
    have h₃ := h.total.trans h₂ hf₃
    refine waits_bind (waits_parent h) ?_
    rintro i s₄ - ⟨hi, hf₄⟩
    have h₄ := h.total.trans h₃ hf₄
    have hpar : Parents s₀ ns p i t m := by
      refine ⟨?_, ?_, ?_⟩
      · rw [← h₄.parents _ _ (by simp), hi]
      · rw [← h₂.parents _ _ (by simp), ht]
      · rw [← h₃.parents _ _ (by simp), hm]
    exact waits_children hs hp hns hpar s₄ _

end Workload

namespace Pool
variable {ι : Type} {s : Store} {p : Pairing} {es : List (Event ι)}

def ofSynthesizers (ι : Type) (p : Pairing) (s : Store) : Pool ι Workload.Synthesis :=
  ⟨s, fun _ => Workload.synthesize p⟩

/-- Calls of others that leave alone what a synthesis reads and writes. -/
def SparesChildren (c : Call) : Prop :=
  ∀ k key, c.Writes k key → k ≠ .inst ∧ k ≠ .tenant ∧ k ≠ .microservice ∧ k ≠ .service ∧
    k ≠ .deployment

variable [DecidableEq ι]

/-- When all runs have ended well, both children are there; one that was there is unchanged, and one
that was not was made once, by what the pairing compiles to. -/
theorem synthesizers_agree [Nonempty ι] (hs : s.Sound) (hp : p.Shaped)
    (hstart : (s.find? .deployment p.key).isSome → (s.find? .service p.key).isSome)
    (hcall : ∀ c, .call c ∈ es → SparesChildren c)
    (hok : ∀ i, ∃ x, ((ofSynthesizers ι p s).exec es).runs i = .done (.ok x)) :
    let s' := ((ofSynthesizers ι p s).exec es).store
    (s'.find? .deployment p.key).isSome ∧ (s'.find? .service p.key).isSome ∧
    (∀ k, k = .service ∨ k = .deployment →
      ((ofSynthesizers ι p s).log es).countP (fun x => decide (x.2 = (k, p.key))) ≤ 1 ∧
        ∀ r, s.find? k p.key = some r → s'.find? k p.key = some r) ∧
    ∃ ns, p.metadata.ns = some ns ∧
      (s.find? .service p.key = none → ∃ i t m v, Workload.Parents s ns p i t m ∧
        s'.find? .service p.key = some ((Workload.service i t m).withVersion v)) ∧
      (s.find? .deployment p.key = none → ∃ i t m v, Workload.Parents s ns p i t m ∧
        s'.find? .deployment p.key = some ((Workload.deployment i t m).withVersion v)) := by
  intro s'
  obtain ⟨j⟩ := (inferInstance : Nonempty ι)
  obtain ⟨x, hx⟩ := hok j
  cases hns : p.metadata.ns with
  | none =>
    have hfail : ((ofSynthesizers ι p s).exec es).runs j = .done (.error _) :=
      runs_exec_of_done (by simp only [ofSynthesizers, Workload.synthesize, hns]; rfl) es
    rw [hx] at hfail
    cases hfail
  | some ns =>
    have hrely := Workload.rely_bears s ns p
    have hwait (i : ι) : Waiting (Workload.Bears s ns p) (Workload.Bears s ns p)
        (fun _ s' => (s'.find? .service p.key).isSome ∧ (s'.find? .deployment p.key).isSome)
        (ofSynthesizers ι p s) i :=
      ⟨s, .refl s, hrely.refl s, Workload.waits_synthesize hs.filed hp hns hstart⟩
    obtain ⟨hbears, hall⟩ := waiting_exec_same (P := ofSynthesizers ι p s) es hrely
      (fun _ _ _ h => h)
      (fun c hc s' => .of_agreeOff fun k key hk =>
        s'.find?_answer_of_not_writes fun hw => hk (hcall c hc k key hw))
      fun i before after _ _ _ => Or.inl (hwait i)
    obtain ⟨s₁, -, hr, hservice, hdeployment⟩ := (hall j (Or.inl (hwait j))).result hx
    have hservice' := hr.isSome (Or.inl rfl) hservice
    have hdeployment' := hr.isSome (Or.inr rfl) hdeployment
    refine ⟨hdeployment', hservice', fun k hk => ⟨?_, fun r hr => hbears.kept k _ r hk hr⟩, ns, rfl,
      fun hnone => ?_, fun hnone => ?_⟩
    · have hmaking : (ofSynthesizers ι p s).Making fun _ _ => True :=
        ⟨hs.filed, fun _ => Reconcile.makes_synthesize hns fun _ _ => ⟨trivial, trivial⟩⟩
      have hcount : ((ofSynthesizers ι p s).log es).countP (fun x => decide (x.2 = (k, p.key))) +
          (s.find? k p.key).toList.length = (s'.find? k p.key).toList.length :=
        hmaking.count_slot fun c hc hw => by
          have hne := hcall c hc k p.key hw
          rcases hk with rfl | rfl <;> simp at hne
      have hlen : (s'.find? k p.key).toList.length ≤ 1 := by cases s'.find? k p.key <;> simp
      omega
    · obtain ⟨r, hr⟩ := Option.isSome_iff_exists.1 hservice'
      rcases hbears.service r hr with hold | ⟨i, t, m, v, hpar, rfl⟩
      · cases hnone.symm.trans hold
      · exact ⟨i, t, m, v, hpar, hr⟩
    · obtain ⟨r, hr⟩ := Option.isSome_iff_exists.1 hdeployment'
      rcases hbears.deployment r hr with hold | ⟨-, i, t, m, v, hpar, rfl⟩
      · cases hnone.symm.trans hold
      · exact ⟨i, t, m, v, hpar, hr⟩

/-- Runs of the resolver for one tenant, when all have ended well, have together added what a single
run would have added, and report how many pairings that are. Runs that synthesize one pairing, when
all have ended well, have made each missing child once. -/
theorem children_made_once :
    (∀ (ι : Type) [Fintype ι] [DecidableEq ι] (s : Store) (t : Tenant) (es : List (Event ι))
      (n : ι → Nat), s.Reached → s.faults = [] → (∀ c, .call c ∈ es → SparesMatrix c) →
      (∀ i, ((ofResolvers ι t s).exec es).runs i = .done (.ok (n i))) →
      let s' := ((ofResolvers ι t s).exec es).store
      (∀ key p, s.find? .pairing key = some p → s'.find? .pairing key = some p) ∧
      s'.count .pairing = s.count .pairing + ∑ i, n i ∧
      (Nonempty ι → ∃ m s₁, (Matrix.resolveTenant t).run s = (.ok m, s₁) ∧ ∀ key,
        (s'.find? .pairing key).map (·.withVersion none) =
          (s₁.find? .pairing key).map (·.withVersion none))) ∧
    ∀ (ι : Type) [Nonempty ι] [DecidableEq ι] (s : Store) (p : Pairing) (es : List (Event ι)),
      s.Reached → p.Shaped →
      ((s.find? .deployment p.key).isSome → (s.find? .service p.key).isSome) →
      (∀ c, .call c ∈ es → SparesChildren c) →
      (∀ i, ∃ x, ((ofSynthesizers ι p s).exec es).runs i = .done (.ok x)) →
      let s' := ((ofSynthesizers ι p s).exec es).store
      (s'.find? .deployment p.key).isSome ∧ (s'.find? .service p.key).isSome ∧
      (∀ k, k = .service ∨ k = .deployment →
        ((ofSynthesizers ι p s).log es).countP (fun x => decide (x.2 = (k, p.key))) ≤ 1 ∧
          ∀ r, s.find? k p.key = some r → s'.find? k p.key = some r) ∧
      ∃ ns, p.metadata.ns = some ns ∧
        (s.find? .service p.key = none → ∃ i t m v, Workload.Parents s ns p i t m ∧
          s'.find? .service p.key = some ((Workload.service i t m).withVersion v)) ∧
        (s.find? .deployment p.key = none → ∃ i t m v, Workload.Parents s ns p i t m ∧
          s'.find? .deployment p.key = some ((Workload.deployment i t m).withVersion v)) := by
  constructor
  · intro ι _ _ s t es n hs hf hcall hok
    exact resolvers_agree hs.sound hf t hcall hok
  · intro ι _ _ s p es hs hp hstart hcall hok
    exact synthesizers_agree hs.sound hp hstart hcall hok

section alternation

/-- Both runs list the pairings before one of them is made. -/
def alternation : List (Event Bool) :=
  (List.replicate 6 [Event.run false, .run true]).flatten

def pairOfAC : Pairing := Pairing.forPair "dc1" "a" "c" .empty

theorem children_made_once_alternation :
    ((ofResolvers Bool (Matrix.bareTenant "a") Matrix.declared).exec alternation).store.count
        .pairing = Matrix.declared.count .pairing + 2 ∧
    ∃ v, ((ofSynthesizers Bool pairOfAC paired).exec alternation).store.find? .deployment
        pairOfAC.key = some ((Workload.deployment Matrix.bareInstance (Matrix.bareTenant "a")
          (Matrix.bareMicroservice "c")).withVersion v) := by
  obtain ⟨hresolvers, hsynthesizers⟩ := children_made_once
  constructor
  · have hok : ∀ i, ((ofResolvers Bool (Matrix.bareTenant "a") Matrix.declared).exec
        alternation).runs i = .done (.ok (if i then 0 else 2)) := by
      intro i
      cases i <;> rfl
    exact (hresolvers Bool Matrix.declared _ alternation _ Matrix.reached_declared rfl
      (by simp [alternation]) hok).2.1
  · have hok : ∀ i, ((ofSynthesizers Bool pairOfAC paired).exec alternation).runs i =
        .done (.ok .created) := by
      intro i
      cases i <;> rfl
    obtain ⟨-, -, -, ns, hns, -, hdeployment⟩ := hsynthesizers Bool paired pairOfAC alternation
      reached_paired ⟨rfl, rfl⟩ (fun h => by cases h) (by simp [alternation])
      fun i => ⟨_, hok i⟩
    obtain ⟨i, t, m, v, hpar, hd⟩ := hdeployment rfl
    cases hns
    cases hpar.inst
    cases hpar.tenant
    cases hpar.microservice
    exact ⟨v, hd⟩

end alternation

end Pool
end TenantOperator
