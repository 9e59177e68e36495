import TenantOperator.Proofs.Interleaving.Births
import TenantOperator.Proofs.Interleaving.Cleaning
import TenantOperator.Proofs.Interruption.Resolver

/-! Several runs of the resolver for one tenant. Each lists what is missing at its own time and
makes it, while the others do the same; together they make what one run would have made. -/
namespace TenantOperator
open Program Store

namespace Matrix
variable {s₀ s s' x y : Store} {ns tenant : String}

/-- The configuration of a pairing that is missing in `s₀`. -/
def Due (s₀ : Store) (ns tenant name : String) (c : Configuration) : Prop :=
  ∃ m ∈ unpaired s₀ ns tenant, m.name = name ∧ ∃ t,
    s₀.find? .microserviceTemplate (.clusterWide m.content.configurationId) = some t ∧
      t.content.configuration = c

theorem mem_unpaired {m : Microservice} : m ∈ unpaired s ns tenant ↔
    m ∈ s.select .microservice (some ns) ∅ ∧ lacks s ns tenant m :=
  List.mem_filter

theorem Due.unique (hs : s₀.Filed) {name : String} {c c' : Configuration}
    (h : Due s₀ ns tenant name c) (h' : Due s₀ ns tenant name c') : c = c' := by
  obtain ⟨m, hm, rfl, t, ht, rfl⟩ := h
  obtain ⟨m', hm', hname, t', ht', rfl⟩ := h'
  have hfind := (hs.of_mem_space (mem_unpaired.1 hm).1).2.1
  have hfind' := (hs.of_mem_space (mem_unpaired.1 hm').1).2.1
  rw [hname, hfind] at hfind'
  cases hfind'
  cases ht.symm.trans ht'
  rfl

/-- From `s` to `s'` some pairings were made that are missing in `s₀`; microservices and templates
are as they were. -/
structure Fills (s₀ : Store) (ns tenant : String) (s s' : Store) : Prop where
  same : ∀ k key, k = .microservice ∨ k = .microserviceTemplate → s'.find? k key = s.find? k key
  kept : ∀ key p, s.find? .pairing key = some p → s'.find? .pairing key = some p
  made : ∀ key p, s'.find? .pairing key = some p → s.find? .pairing key = some p ∨
    ∃ name c v, Due s₀ ns tenant name c ∧ key = .inSpace ns (Naming.pairing tenant name) ∧
      p = (Pairing.forPair ns tenant name c).withVersion v

theorem rely_fills (s₀ : Store) (ns tenant : String) : Rely (Fills s₀ ns tenant) where
  faults s l := by
    refine ⟨fun k key _ => find?_setFaults .., fun key p hp => ?_, fun key p hp => Or.inl ?_⟩
    · rwa [find?_setFaults]
    · rwa [find?_setFaults] at hp
  trans s₁ s₂ s₃ h h' := by
    refine ⟨fun k key hk => (h'.same k key hk).trans (h.same k key hk),
      fun key p hp => h'.kept key p (h.kept key p hp), fun key p hp => ?_⟩
    exact (h'.made key p hp).elim (h.made key p) Or.inr

theorem around_fills (s₀ : Store) (ns tenant : String) :
    Around (Fills s₀ ns tenant) (Fills s₀ ns tenant) (Fills s₀ ns tenant) where
  rely := rely_fills ..
  total := rely_fills ..
  others _ _ h := h
  own _ _ h := h
  faults := (rely_fills s₀ ns tenant).faults

theorem Fills.of_agreeOff
    (h : AgreeOff (fun k _ => k ≠ .microservice ∧ k ≠ .microserviceTemplate ∧ k ≠ .pairing) s s') :
    Fills s₀ ns tenant s s' where
  same k key hk := h k key (by rcases hk with rfl | rfl <;> simp)
  kept key p hp := by rwa [h _ _ (by simp)]
  made key p hp := Or.inl (by rwa [h _ _ (by simp)] at hp)

theorem Fills.put {name : String} {c : Configuration} (hdue : Due s₀ ns tenant name c)
    (hnone : s.find? .pairing (.inSpace ns (Naming.pairing tenant name)) = none) :
    Fills s₀ ns tenant s (s.put (Pairing.forPair ns tenant name c).key
      (Pairing.forPair ns tenant name c)) := by
  have hkey : (Pairing.forPair ns tenant name c).key =
      .inSpace ns (Naming.pairing tenant name) := rfl
  rw [hkey]
  refine ⟨fun k key hk => ?_, fun key p hp => ?_, fun key p hp => ?_⟩
  · exact find?_put_of_ne s (by rcases hk with rfl | rfl <;> simp) _
  · rw [find?_put_of_ne s _ _, hp]
    rintro ⟨-, rfl⟩
    rw [hnone] at hp
    cases hp
  · by_cases hk : key = .inSpace ns (Naming.pairing tenant name)
    · subst hk
      rw [find?_put_self] at hp
      cases hp
      exact Or.inr ⟨name, c, _, hdue, rfl, rfl⟩
    · rw [find?_put_of_ne s fun he => hk he.2] at hp
      exact Or.inl hp

/-- All microservices of a list have their templates and hold the names of their pairings. -/
def Held (s : Store) (ns tenant : String) (ms : List Microservice) : Prop :=
  ∀ m ∈ ms, (s.find? .microserviceTemplate (.clusterWide m.content.configurationId)).isSome ∧
    (s.find? .pairing (.inSpace ns (Naming.pairing tenant m.name))).isSome

theorem Held.fills {ms : List Microservice} (h : Held s ns tenant ms)
    (hf : Fills s₀ ns tenant s s') : Held s' ns tenant ms := by
  intro m hm
  obtain ⟨ht, hp⟩ := h m hm
  obtain ⟨p, hp⟩ := Option.isSome_iff_exists.1 hp
  refine ⟨?_, by rw [hf.kept _ p hp]; rfl⟩
  rwa [hf.same _ _ (Or.inr rfl)]

theorem waits_templateConfiguration (h₀ : Fills s₀ ns tenant s₀ s) (m : Microservice) :
    (templateConfiguration m).Waits (Fills s₀ ns tenant) (Fills s₀ ns tenant)
      (fun c s' => Fills s₀ ns tenant s s' ∧ ∃ t,
        s₀.find? .microserviceTemplate (.clusterWide m.content.configurationId) = some t ∧
          t.content.configuration = c) s := by
  have h := around_fills s₀ ns tenant
  rw [templateConfiguration, getRequired, Program.bind_assoc]
  refine waits_bind (Q := fun t s' => Fills s₀ ns tenant s s' ∧
    t = s₀.find? .microserviceTemplate (.clusterWide m.content.configurationId)) ?_ ?_
  · refine waits_of_acts h.rely fun s' _ hr => acts_get (h.faults s') ⟨hr, ?_⟩
    exact (h.rely.trans h₀ hr).same _ _ (Or.inr rfl)
  · rintro t s' - ⟨hf, ht⟩
    cases t with
    | none => exact waits_fail _
    | some t => exact waits_pure ⟨hf, t, ht.symm, rfl⟩

theorem waits_pairAll {ms : List Microservice} (hms : ∀ m ∈ ms, m ∈ unpaired s₀ ns tenant)
    (h₀ : Fills s₀ ns tenant s₀ s) :
    (pairAll ns tenant ms).Waits (Fills s₀ ns tenant) (Fills s₀ ns tenant)
      (fun _ s' => Held s' ns tenant ms) s := by
  have h := around_fills s₀ ns tenant
  induction ms generalizing s with
  | nil => exact waits_pure (by simp [Held])
  | cons m ms ih =>
    rw [pairAll]
    refine waits_bind (waits_templateConfiguration h₀ m) ?_
    rintro c s₁ - ⟨hf₁, t, ht, hc⟩
    have h₁ := h.total.trans h₀ hf₁
    have hdue : Due s₀ ns tenant m.name c := ⟨m, hms m List.mem_cons_self, rfl, t, ht, hc⟩
    refine waits_bind (waits_ensureCreated h (n := Naming.pairing tenant m.name) rfl
      fun s' _ hnone => .put hdue hnone) ?_
    rintro made s₂ - ⟨hf₂, hsome⟩
    have h₂ := h.total.trans h₁ hf₂
    refine waits_bind (ih (fun m' hm' => hms m' (List.mem_cons_of_mem m hm')) h₂).course ?_
    rintro n s₃ - ⟨hheld, hcourse⟩
    refine waits_pure fun m' hm' => ?_
    rcases List.mem_cons.1 hm' with rfl | hm'
    · have hone : Held s₂ ns tenant [m'] := by
        rintro _ hmem
        obtain rfl := List.mem_singleton.1 hmem
        exact ⟨by rw [h₂.same _ _ (Or.inr rfl), ht]; rfl, hsome⟩
      exact hone.fills (h.course hcourse) m' (by simp)
    · exact hheld m' hm'

theorem held_of_not_lacks (hs : s₀.Filed) (h₀ : Fills s₀ ns tenant s₀ s) {m : Microservice}
    (hm : m ∈ unpaired s₀ ns tenant) (hl : ¬lacks s ns tenant m) : Held s ns tenant [m] := by
  simp only [lacks_iff, not_forall, Classical.not_not] at hl
  obtain ⟨p, hp, hid⟩ := hl
  obtain ⟨key, hf, hpick⟩ := mem_select.1 hp
  rintro _ hmem
  obtain rfl := List.mem_singleton.1 hmem
  rcases h₀.made key p hf with hold | ⟨name, c, v, ⟨m', hm', rfl, t, ht, -⟩, rfl, rfl⟩
  · exact absurd hid (lacks_iff.1 (mem_unpaired.1 hm).2 p (mem_select.2 ⟨key, hold, hpick⟩))
  · have hname : m'.name = _ := hid
    have hfind := (hs.of_mem_space (mem_unpaired.1 hm).1).2.1
    have hfind' := (hs.of_mem_space (mem_unpaired.1 hm').1).2.1
    rw [hname, hfind] at hfind'
    cases hfind'
    exact ⟨by rw [h₀.same _ _ (Or.inr rfl), ht]; rfl, by rw [hf]; rfl⟩

theorem unpaired_of_lacks (h₀ : Fills s₀ ns tenant s₀ s) {m : Microservice}
    (hm : m ∈ s₀.select .microservice (some ns) ∅) (hl : lacks s ns tenant m) :
    m ∈ unpaired s₀ ns tenant := by
  refine mem_unpaired.2 ⟨hm, lacks_iff.2 fun p hp => ?_⟩
  obtain ⟨key, hf, hpick⟩ := mem_select.1 hp
  exact lacks_iff.1 hl p (mem_select.2 ⟨key, h₀.kept key p hf, hpick⟩)

/-- Among others of its kind, a run of the resolver that ends well leaves nothing missing that was
missing in the beginning. -/
theorem waits_resolveTenant (hs : s₀.Filed) {t : Tenant} (hns : t.metadata.ns = some ns) :
    (resolveTenant t).Waits (Fills s₀ ns t.name) (Fills s₀ ns t.name)
      (fun _ s' => Held s' ns t.name (unpaired s₀ ns t.name)) s₀ := by
  have h := around_fills s₀ ns t.name
  simp only [resolveTenant, hns]
  refine waits_bind (Q := fun ms s' => ms = s₀.select .microservice (some ns) ∅ ∧
    Fills s₀ ns t.name s₀ s') ?_ ?_
  · refine waits_of_acts h.rely fun s' _ hr => acts_list (h.faults s') ⟨?_, hr⟩
    exact select_congr fun key r _ => by rw [hr.same _ _ (Or.inl rfl)]
  rintro ms s₁ - ⟨rfl, h₁⟩
  refine waits_bind (Q := fun ps s' =>
    ps = s'.select .pairing (some ns) (Naming.tenantSelector t.name) ∧
      Fills s₀ ns t.name s₀ s') ?_ ?_
  · refine waits_of_acts h.rely fun s' _ hr => acts_list (h.faults s') ⟨rfl, ?_⟩
    exact h.total.trans h₁ hr
  rintro ps s₂ - ⟨rfl, h₂⟩
  have hlist : ∀ m ∈ (s₀.select .microservice (some ns) ∅).filter (lacks s₂ ns t.name),
      m ∈ unpaired s₀ ns t.name := by
    intro m hm
    obtain ⟨hm, hl⟩ := List.mem_filter.1 hm
    exact unpaired_of_lacks h₂ hm hl
  refine (waits_pairAll hlist h₂).course.imp fun n s₃ hend m hm => ?_
  obtain ⟨hheld, hcourse⟩ := hend
  by_cases hl : lacks s₂ ns t.name m
  · exact hheld m (List.mem_filter.2 ⟨(mem_unpaired.1 hm).1, hl⟩)
  · exact (held_of_not_lacks hs h₂ hm hl).fills (h.course hcourse) m (by simp)

theorem run_pairAll_of_templates (hs : s.Calm) (ns tenant : String) {ms : List Microservice}
    (h : ∀ m ∈ ms,
      (s.find? .microserviceTemplate (.clusterWide m.content.configurationId)).isSome) :
    ∃ n s', (pairAll ns tenant ms).run s = (.ok n, s') := by
  induction ms generalizing s with
  | nil => exact ⟨0, s, rfl⟩
  | cons m ms ih =>
    obtain ⟨t, ht⟩ := Option.isSome_iff_exists.1 (h m List.mem_cons_self)
    let r := Pairing.forPair ns tenant m.name t.content.configuration
    have hst := Stage.ensured s ns tenant m.name t.content.configuration
    obtain ⟨n, s', hrest⟩ := ih (s := s.ensured r) (hs.ensured r) fun m' hm' => by
      rw [hst.find?_eq]
      exact h m' (List.mem_cons_of_mem m hm')
    have hc : (templateConfiguration m).run s = (.ok t.content.configuration, s) :=
      run_bind_of_ok (hs.run_getRequired ht)
    have hmade := hs.run_ensureCreated (n := Naming.pairing tenant m.name) (r := r) rfl
    exact ⟨_, _, (run_bind_of_ok hc).trans ((run_bind_of_ok hmade).trans (run_bind_of_ok hrest))⟩

theorem Fills.pairings_eq (hs : s₀.Filed) (hx : Fills s₀ ns tenant s₀ x)
    (hxheld : Held x ns tenant (unpaired s₀ ns tenant)) (hy : Fills s₀ ns tenant s₀ y)
    (hyheld : Held y ns tenant (unpaired s₀ ns tenant)) (key : Key) :
    (x.find? .pairing key).map (·.withVersion none) =
      (y.find? .pairing key).map (·.withVersion none) := by
  have hsome {x y : Store} (hx : Fills s₀ ns tenant s₀ x) (hy : Fills s₀ ns tenant s₀ y)
      (hyheld : Held y ns tenant (unpaired s₀ ns tenant)) {p : Pairing}
      (hp : x.find? .pairing key = some p) :
      ∃ q, y.find? .pairing key = some q ∧ q.withVersion none = p.withVersion none := by
    rcases hx.made key p hp with hold | ⟨name, c, v, hdue, rfl, rfl⟩
    · exact ⟨p, hy.kept key p hold, rfl⟩
    have hdue' := hdue
    obtain ⟨m, hm, rfl, -⟩ := hdue
    obtain ⟨q, hq⟩ := Option.isSome_iff_exists.1 (hyheld m hm).2
    refine ⟨q, hq, ?_⟩
    rcases hy.made _ q hq with hold | ⟨name, c', v', hdue, hkey, rfl⟩
    · rw [hx.kept _ q hold] at hp
      rw [Option.some.inj hp]
    · obtain rfl : m.name = name := Naming.pairing_inj.1 (Key.inSpace_inj.1 hkey).2
      rw [hdue'.unique hs hdue]
      rfl
  cases hp : x.find? .pairing key with
  | some p =>
    obtain ⟨q, hq, he⟩ := hsome hx hy hyheld hp
    rw [hq, Option.map_some, Option.map_some, he]
  | none =>
    cases hq : y.find? .pairing key with
    | none => rfl
    | some q =>
      obtain ⟨p, hp', -⟩ := hsome hy hx hxheld hq
      rw [hp] at hp'
      cases hp'

end Matrix

namespace Pool
variable {ι : Type} {s : Store} {t : Tenant} {es : List (Event ι)}

def ofResolvers (ι : Type) (t : Tenant) (s : Store) : Pool ι Nat :=
  ⟨s, fun _ => Matrix.resolveTenant t⟩

/-- Calls of others that leave alone what the resolver reads and writes. -/
def SparesMatrix (c : Call) : Prop :=
  ∀ k key, c.Writes k key → k ≠ .microservice ∧ k ≠ .microserviceTemplate ∧ k ≠ .pairing

theorem making_ofResolvers (hs : s.Filed) (t : Tenant) :
    (ofResolvers ι t s).Making fun k _ => k = .pairing := by
  refine ⟨hs, fun i => (Cleaning.every_resolveTenant t).mono fun c hc => ?_⟩
  rcases hc with hread | ⟨ns, t, m, cfg, rfl⟩
  · exact Call.makes_read hread
  · exact Or.inr ⟨_, _, rfl, rfl⟩

variable [DecidableEq ι]

/-- Whatever turns the runs take, they only make what is missing; and when one of them has ended
well, nothing is missing. -/
theorem fills_of_resolvers (hs : s.Sound) {ns : String} (hns : t.metadata.ns = some ns)
    (es : List (Event ι)) (hcall : ∀ c, .call c ∈ es → SparesMatrix c) :
    Matrix.Fills s ns t.name s ((ofResolvers ι t s).exec es).store ∧
    ∀ i n, ((ofResolvers ι t s).exec es).runs i = .done (.ok n) →
      Matrix.Held ((ofResolvers ι t s).exec es).store ns t.name (Matrix.unpaired s ns t.name) := by
  have hrely := Matrix.rely_fills s ns t.name
  have hwait (i : ι) : Waiting (Matrix.Fills s ns t.name) (Matrix.Fills s ns t.name)
      (fun _ s' => Matrix.Held s' ns t.name (Matrix.unpaired s ns t.name)) (ofResolvers ι t s) i :=
    ⟨s, .refl s, hrely.refl s, Matrix.waits_resolveTenant hs.filed hns⟩
  obtain ⟨hfills, hall⟩ := waiting_exec_same (P := ofResolvers ι t s) es hrely (fun _ _ _ h => h)
    (fun c hc s' => .of_agreeOff fun k key hk =>
      s'.find?_answer_of_not_writes fun hw => hk (hcall c hc k key hw))
    fun i before after _ _ _ => Or.inl (hwait i)
  refine ⟨hfills, fun i n hi => ?_⟩
  obtain ⟨s', -, hr, hheld⟩ := (hall i (Or.inl (hwait i))).result hi
  exact hheld.fills hr

/-- When all runs have ended well, the pairings that were added are as many as they report, and they
are the ones that a single run would have added. -/
theorem resolvers_agree [Fintype ι] (hs : s.Sound) (hf : s.faults = []) (t : Tenant)
    (hcall : ∀ c, .call c ∈ es → SparesMatrix c) {n : ι → Nat}
    (hok : ∀ i, ((ofResolvers ι t s).exec es).runs i = .done (.ok (n i))) :
    let s' := ((ofResolvers ι t s).exec es).store
    (∀ key p, s.find? .pairing key = some p → s'.find? .pairing key = some p) ∧
    s'.count .pairing = s.count .pairing + ∑ i, n i ∧
    (Nonempty ι → ∃ m s₁, (Matrix.resolveTenant t).run s = (.ok m, s₁) ∧ ∀ key,
      (s'.find? .pairing key).map (·.withVersion none) =
        (s₁.find? .pairing key).map (·.withVersion none)) := by
  intro s'
  have hmaking : (ofResolvers ι t s).Making fun k _ => k = .pairing := making_ofResolvers hs.filed t
  have hpairing : ∀ c, .call c ∈ es → ∀ key, ¬c.Writes .pairing key := fun c hc key hw =>
    (hcall c hc _ key hw).2.2 rfl
  refine ⟨fun key p hp => hmaking.find?_kept (fun c hc => hpairing c hc key) hp, ?_, ?_⟩
  · have hshare : ∀ i, n i = share i ((ofResolvers ι t s).log es) := by
      intro i
      have htally := tallies_exec (P := ofResolvers ι t s) (i := i) hs.filed
        (Matrix.tallies_resolveTenant t) es
      rw [hok i, Nat.zero_add] at htally
      exact htally
    rw [Finset.sum_congr rfl fun i _ => hshare i, sum_share]
    exact hmaking.count_eq (fun _ _ h => h) hpairing
  · rintro ⟨i⟩
    cases hns : t.metadata.ns with
    | none =>
      have hfail : ((ofResolvers ι t s).exec es).runs i = .done (.error _) :=
        runs_exec_of_done (by simp only [ofResolvers, Matrix.resolveTenant, hns]; rfl) es
      rw [hok i] at hfail
      cases hfail
    | some ns =>
      obtain ⟨hfills, hheld⟩ := fills_of_resolvers hs hns es hcall
      have hheld := hheld i _ (hok i)
      have hcalm : s.Calm := ⟨hs.filed, hf⟩
      -- All templates are there, so a single run ends well; and it is a pool of its own.
      have htemplates : ∀ m ∈ Matrix.unpaired s ns t.name,
          (s.find? .microserviceTemplate (.clusterWide m.content.configurationId)).isSome := by
        intro m hm
        rw [← hfills.same _ _ (Or.inr rfl)]
        exact (hheld m hm).1
      obtain ⟨m, s₁, hrun⟩ := Matrix.run_pairAll_of_templates hcalm ns t.name htemplates
      rw [← Matrix.run_resolveTenant hcalm hns] at hrun
      refine ⟨m, s₁, hrun, fun key => ?_⟩
      obtain ⟨k, hk⟩ := exec_replicate_run (ofResolvers Unit t s) ()
      have hlone : (ofResolvers Unit t s).exec (List.replicate k (.run ())) =
          ⟨s₁, Function.update (ofResolvers Unit t s).runs () (.done (.ok m))⟩ := by
        rw [hk]
        show Pool.mk ((Matrix.resolveTenant t).run s).2 _ = _
        simp only [ofResolvers, hrun]
      obtain ⟨hfills₁, hheld₁⟩ := fills_of_resolvers hs hns (List.replicate k (Event.run ()))
        (by simp)
      rw [hlone] at hfills₁ hheld₁
      exact hfills.pairings_eq hs.filed hheld hfills₁ (hheld₁ () m rfl) key

end Pool
end TenantOperator
