import Mathlib.Logic.ExistsUnique
import TenantOperator.Proofs.Tenancy.Sync
import TenantOperator.Tenancy.Matrix

/-! The pairing matrix. Resolving a tenant leaves it complete: each microservice is paired, or the
name of the missing pairing is taken. A taken name can belong to other ids, since ids may contain
the character that joins them. -/
namespace TenantOperator

/-- Name and labels are the ones that the ids stand for. -/
structure Pairing.Shaped (p : Pairing) : Prop where
  name : p.metadata.name = some (Naming.pairing p.content.tenantId p.content.microserviceId)
  labels : p.metadata.labels =
    some (Naming.managedLabels p.content.tenantId p.content.microserviceId)

instance (p : Pairing) : Decidable p.Shaped :=
  decidable_of_iff
    (p.metadata.name = some (Naming.pairing p.content.tenantId p.content.microserviceId) ∧
      p.metadata.labels = some (Naming.managedLabels p.content.tenantId p.content.microserviceId))
    ⟨fun h => ⟨h.1, h.2⟩, fun h => ⟨h.name, h.labels⟩⟩

namespace Pairing.Shaped
variable {p : Pairing} {tenant : String}

theorem key_eq (hp : p.Shaped) {ns : String} (hns : p.metadata.ns = some ns) :
    p.key = .inSpace ns (Naming.pairing p.content.tenantId p.content.microserviceId) := by
  rw [← Resource.key_eq hp.name, hns]
  rfl

theorem satisfies_iff (hp : p.Shaped) :
    p.metadata.satisfies (Naming.tenantSelector tenant) = true ↔ p.content.tenantId = tenant := by
  rw [Metadata.satisfies_tenantSelector, Metadata.labelMap, hp.labels]
  simp [Naming.find?_managedLabels_tenant]

theorem satisfies_microserviceSelector_iff (hp : p.Shaped) {microservice : String} :
    p.metadata.satisfies (Naming.microserviceSelector microservice) = true ↔
      p.content.microserviceId = microservice := by
  rw [Metadata.satisfies_microserviceSelector, Metadata.labelMap, hp.labels]
  simp [Naming.find?_managedLabels_microservice]

end Pairing.Shaped

theorem Pairing.shaped_forPair (ns tenant microservice : String) (c : Configuration)
    (v : Option String) :
    Pairing.Shaped ((Pairing.forPair ns tenant microservice c).withVersion v) :=
  ⟨rfl, rfl⟩

/-- Every pairing is shaped. -/
def Store.Shaped (s : Store) : Prop :=
  ∀ ⦃key : Key⦄ ⦃p : Pairing⦄, s.find? .pairing key = some p → p.Shaped

theorem Store.shaped_iff {s : Store} :
    s.Shaped ↔ ∀ e ∈ s.pairings.entries, Pairing.Shaped e.2 :=
  ⟨fun h _ he => h (SortedMap.find?_eq_some_iff.2 he),
    fun h _ _ hp => h _ (SortedMap.find?_eq_some_iff.1 hp)⟩

instance (s : Store) : Decidable s.Shaped := decidable_of_iff _ Store.shaped_iff.symm

namespace Matrix
open Program Store

/-- From `s` to `s'` pairings were made for tenants of `T`, and what these tenants share changed. -/
structure Stage (ns : String) (T : String → Prop) (s s' : Store) : Prop where
  calm : s.Calm → s'.Calm
  others : AgreeOff (fun k key => k = .pairing ∨ ∃ t, T t ∧ Bundle.Shared ns t k key) s s'
  kept : ∀ key p, s.find? .pairing key = some p → s'.find? .pairing key = some p
  made : ∀ key p, s'.find? .pairing key = some p → s.find? .pairing key = some p ∨
    ∃ t m c v, T t ∧ p = (Pairing.forPair ns t m c).withVersion v

namespace Stage
variable {ns : String} {T U : String → Prop} {s s₁ s' : Store}

theorem refl (ns : String) (T : String → Prop) (s : Store) : Stage ns T s s where
  calm := id
  others := .refl _ s
  kept _ _ h := h
  made _ _ h := Or.inl h

theorem trans (h : Stage ns T s s₁) (h' : Stage ns T s₁ s') : Stage ns T s s' where
  calm hs := h'.calm (h.calm hs)
  others := h.others.trans h'.others
  kept key p hp := h'.kept key p (h.kept key p hp)
  made key p hp := by
    rcases h'.made key p hp with hp | hp
    · exact h.made key p hp
    · exact Or.inr hp

theorem mono (h : Stage ns T s s') (htu : ∀ t, T t → U t) : Stage ns U s s' where
  calm := h.calm
  others := h.others.mono fun _ _ hk => hk.imp id fun ⟨t, ht, hk⟩ => ⟨t, htu t ht, hk⟩
  kept := h.kept
  made key p hp := (h.made key p hp).imp id fun ⟨t, m, c, v, ht, he⟩ => ⟨t, m, c, v, htu t ht, he⟩

theorem ensured (s : Store) (ns tenant m : String) (c : Configuration) :
    Stage ns (· = tenant) s (s.ensured (Pairing.forPair ns tenant m c)) where
  calm hs := hs.ensured _
  others := (s.agreeOff_ensured _).mono fun _ _ h => Or.inl h.1
  kept _ _ h := find?_ensured_of_some h
  made key p h := by
    rcases eq_of_find?_ensured h with hold | ⟨-, v, rfl⟩
    · exact Or.inl hold
    · exact Or.inr ⟨tenant, m, c, v, rfl, rfl⟩

theorem find?_eq (h : Stage ns T s s') {k : Kind} {key : Key}
    (hk : k ≠ .pairing ∧ k ≠ .configMap ∧ k ≠ .ingress := by simp) :
    s'.find? k key = s.find? k key :=
  h.others k key (by simp [Bundle.Shared, hk])

theorem select_microservice (h : Stage ns T s s') (space : Option String) (labels : Labels) :
    s'.select .microservice space labels = s.select .microservice space labels :=
  select_congr fun key r _ => by rw [h.find?_eq]

theorem of_shared {tenant : String} (hc : s.Calm → s'.Calm)
    (ha : AgreeOff (Bundle.Shared ns tenant) s s') : Stage ns (· = tenant) s s' where
  calm := hc
  others := ha.mono fun _ _ h => Or.inr ⟨tenant, rfl, h⟩
  kept key p h := by rwa [ha _ _ (by simp [Bundle.Shared])]
  made key p h := by
    rw [ha _ _ (by simp [Bundle.Shared])] at h
    exact Or.inl h

theorem synced (st : Settings) (s : Store) (ns tenant : String) :
    Stage ns (· = tenant) s (Teardown.synced st s ns tenant) :=
  of_shared (Teardown.calm_synced st ns tenant) (Teardown.agreeOff_synced st ns tenant s)

theorem resolved_eq (h : Stage ns T s s') {tenant : String} (ht : ¬T tenant) :
    s'.resolved ns tenant = s.resolved ns tenant := by
  refine resolved_congr (fun id => h.find?_eq) fun key p hp => ?_
  refine ⟨fun hf => (h.made key p hf).resolve_right ?_, h.kept key p⟩
  rintro ⟨t, m, c, v, ht', rfl⟩
  simp only [picks, Bool.and_eq_true] at hp
  have he : t = tenant := (Pairing.shaped_forPair ns t m c v).satisfies_iff.1 hp.2
  exact ht (he ▸ ht')

theorem find?_shared (h : Stage ns T s s') {tenant : String} (ht : ¬T tenant) {k : Kind} {key : Key}
    (hk : Bundle.Shared ns tenant k key) : s'.find? k key = s.find? k key := by
  refine h.others k key ?_
  rintro (rfl | ⟨u, hu, hk'⟩)
  · simp [Bundle.Shared] at hk
  · exact ht ((Bundle.shared_inj hk hk').2 ▸ hu)

theorem settled {st : Settings} (h : Stage ns T s s') {tenant : String} (ht : ¬T tenant)
    (hset : Teardown.Settled st s ns tenant) : Teardown.Settled st s' ns tenant :=
  hset.congr st ns tenant (h.resolved_eq ht) fun _ _ hk => h.find?_shared ht hk

end Stage

/-- Each microservice is paired with the tenant, or has its template and a taken name. -/
def Complete (s : Store) (ns tenant : String) : Prop :=
  ∀ m ∈ s.select .microservice (some ns) ∅,
    (∃ p ∈ s.select .pairing (some ns) (Naming.tenantSelector tenant),
      p.content.microserviceId = m.name) ∨
    (s.find? .microserviceTemplate (.clusterWide m.content.configurationId)).isSome ∧
      (s.find? .pairing (.inSpace ns (Naming.pairing tenant m.name))).isSome

theorem Complete.stage {s s' : Store} {ns tenant : String} {T : String → Prop}
    (h : Complete s ns tenant) (hst : Stage ns T s s') : Complete s' ns tenant := by
  intro m hm
  rw [hst.select_microservice] at hm
  rcases h m hm with ⟨p, hp, hid⟩ | ⟨ht, hp⟩
  · obtain ⟨key, hf, hk⟩ := mem_select.1 hp
    exact Or.inl ⟨p, mem_select.2 ⟨key, hst.kept key p hf, hk⟩, hid⟩
  · obtain ⟨p, hp⟩ := Option.isSome_iff_exists.1 hp
    refine Or.inr ⟨?_, by rw [hst.kept _ p hp]; rfl⟩
    rwa [hst.find?_eq]

theorem run_templateConfiguration_ok {s s' : Store} {m : Microservice} {c : Configuration}
    (h : (templateConfiguration m).run s = (.ok c, s')) :
    (s.find? .microserviceTemplate (.clusterWide m.content.configurationId)).isSome ∧ s' = s := by
  rw [templateConfiguration, run_bind_ok] at h
  obtain ⟨t, s₁, ht, h⟩ := h
  obtain ⟨hf, rfl⟩ := run_getRequired_ok ht
  cases h
  exact ⟨by rw [hf]; rfl, rfl⟩

theorem run_pairAll_ok {ns tenant : String} {ms : List Microservice} {s s' : Store} {n : Nat}
    (h : (pairAll ns tenant ms).run s = (.ok n, s')) :
    Stage ns (· = tenant) s s' ∧ ∀ m ∈ ms,
      (s'.find? .microserviceTemplate (.clusterWide m.content.configurationId)).isSome ∧
        (s'.find? .pairing (.inSpace ns (Naming.pairing tenant m.name))).isSome := by
  induction ms generalizing s n with
  | nil =>
    cases h
    exact ⟨.refl ns _ _, by simp⟩
  | cons m ms ih =>
    rw [pairAll, run_bind_ok] at h
    obtain ⟨c, s₁, hc, h⟩ := h
    obtain ⟨ht, rfl⟩ := run_templateConfiguration_ok hc
    rw [run_bind_ok] at h
    obtain ⟨made, s₂, hm, h⟩ := h
    obtain ⟨-, rfl⟩ := run_ensureCreated_ok (n := Naming.pairing tenant m.name) rfl hm
    rw [run_bind_ok] at h
    obtain ⟨rest, s₃, hr, h⟩ := h
    cases h
    obtain ⟨hst, hall⟩ := ih hr
    refine ⟨(Stage.ensured s₁ ns tenant m.name c).trans hst, ?_⟩
    intro q hq
    rcases List.mem_cons.1 hq with rfl | hq
    · obtain ⟨p, hp⟩ := Option.isSome_iff_exists.1
        (isSome_find?_ensured s₁ (Pairing.forPair ns tenant q.name c))
      refine ⟨?_, Option.isSome_iff_exists.2 ⟨p, hst.kept _ p hp⟩⟩
      rwa [((Stage.ensured s₁ ns tenant q.name c).trans hst).find?_eq]
    · exact hall q hq

/-- What a run of the resolver that ended well did, whatever faults the store held. -/
theorem run_resolveTenant_ok {t : Tenant} {s s' : Store} {n : Nat}
    (h : (resolveTenant t).run s = (.ok n, s')) :
    ∃ ns, t.metadata.ns = some ns ∧ Stage ns (· = t.name) s s' ∧ Complete s' ns t.name := by
  unfold resolveTenant at h
  split at h
  · cases h
  · rename_i ns hns
    rw [run_bind_ok] at h
    obtain ⟨ms, s₁, hm, h⟩ := h
    obtain ⟨rfl, rfl⟩ := run_list_ok hm
    rw [run_bind_ok] at h
    obtain ⟨ps, s₂, hp, h⟩ := h
    obtain ⟨rfl, rfl⟩ := run_list_ok hp
    obtain ⟨hst, hall⟩ := run_pairAll_ok h
    refine ⟨ns, hns, hst, fun m hm => ?_⟩
    rw [hst.select_microservice] at hm
    by_cases hid : ∃ p ∈ s₂.select .pairing (some ns) (Naming.tenantSelector t.name),
        p.content.microserviceId = m.name
    · obtain ⟨p, hp, hid⟩ := hid
      obtain ⟨key, hf, hk⟩ := mem_select.1 hp
      exact Or.inl ⟨p, mem_select.2 ⟨key, hst.kept key p hf, hk⟩, hid⟩
    · exact Or.inr (hall m (List.mem_filter.2 ⟨hm, by simpa using hid⟩))

theorem rests_pairAll {ns tenant : String} {ms : List Microservice} {s : Store} (hs : s.Calm)
    (h : ∀ m ∈ ms,
      (s.find? .microserviceTemplate (.clusterWide m.content.configurationId)).isSome ∧
        (s.find? .pairing (.inSpace ns (Naming.pairing tenant m.name))).isSome) :
    ∃ n, (pairAll ns tenant ms).Rests s n := by
  induction ms with
  | nil => exact ⟨0, rfl⟩
  | cons m ms ih =>
    obtain ⟨n, hn⟩ := ih fun q hq => h q (List.mem_cons_of_mem m hq)
    obtain ⟨ht, hp⟩ := h m List.mem_cons_self
    obtain ⟨t, ht⟩ := Option.isSome_iff_exists.1 ht
    have hc : (templateConfiguration m).Rests s t.content.configuration :=
      Rests.bind (hs.run_getRequired ht) rfl
    have hm : (ensureCreated (Pairing.forPair ns tenant m.name t.content.configuration)).Rests s
        false := hs.rests_ensureCreated (n := Naming.pairing tenant m.name) rfl hp
    exact ⟨_, Rests.bind hc (Rests.bind hm (Rests.bind hn rfl))⟩

theorem rests_resolveTenant {t : Tenant} {ns : String} {s : Store} (hs : s.Calm)
    (hns : t.metadata.ns = some ns) (h : Complete s ns t.name) :
    ∃ n, (resolveTenant t).Rests s n := by
  have hall : ∀ m ∈ (s.select .microservice (some ns) ∅).filter fun m =>
      !((s.select .pairing (some ns) (Naming.tenantSelector t.name)).map
        fun p => p.content.microserviceId).contains m.name,
      (s.find? .microserviceTemplate (.clusterWide m.content.configurationId)).isSome ∧
        (s.find? .pairing (.inSpace ns (Naming.pairing t.name m.name))).isSome := by
    intro m hm
    obtain ⟨hm, hid⟩ := List.mem_filter.1 hm
    refine (h m hm).resolve_left ?_
    rintro ⟨p, hp, he⟩
    have hc : m.name ∉ (s.select .pairing (some ns) (Naming.tenantSelector t.name)).map
        fun p => p.content.microserviceId := by simpa using hid
    exact hc (List.mem_map.2 ⟨p, hp, he⟩)
  obtain ⟨n, hn⟩ := rests_pairAll hs hall
  refine ⟨n, ?_⟩
  simp only [resolveTenant, hns]
  exact Rests.bind (hs.run_list ..) (Rests.bind (hs.run_list ..) hn)

/-- Whether a slot of the namespace holds the pairing of the two ids. -/
def PairedAt (s : Store) (ns tenant microservice : String) (key : Key) : Prop :=
  key.ns = some ns ∧ ∃ p, s.find? .pairing key = some p ∧
    p.content.tenantId = tenant ∧ p.content.microserviceId = microservice

theorem PairedAt.key_eq {s : Store} {ns tenant microservice : String} {key : Key} (hs : s.Filed)
    (hp : s.Shaped)
    (h : PairedAt s ns tenant microservice key) :
    key = .inSpace ns (Naming.pairing tenant microservice) := by
  obtain ⟨hns, p, hf, rfl, rfl⟩ := h
  have hk := hs hf
  subst hk
  exact (hp hf).key_eq hns

theorem Stage.shaped {ns : String} {T : String → Prop} {s s' : Store} (h : Stage ns T s s')
    (hp : s.Shaped) :
    s'.Shaped := by
  intro key p hf
  rcases h.made key p hf with hf | ⟨t, m, c, v, -, rfl⟩
  · exact hp hf
  · exact Pairing.shaped_forPair ns t m c v

/-- A complete tenant has the pairing with a microservice unless other ids hold its name. -/
theorem Complete.pairedAt {s s' : Store} {ns tenant : String} {m : Microservice} (hs : s'.Filed)
    (hp : s.Shaped)
    (hst : Stage ns (· = tenant) s s') (hc : Complete s' ns tenant)
    (hm : m ∈ s'.select .microservice (some ns) ∅)
    (hfree : ∀ p, s.find? .pairing (.inSpace ns (Naming.pairing tenant m.name)) = some p →
      p.content.tenantId = tenant ∧ p.content.microserviceId = m.name) :
    PairedAt s' ns tenant m.name (.inSpace ns (Naming.pairing tenant m.name)) := by
  have hp' := hst.shaped hp
  rcases hc m hm with ⟨p, hsel, hid⟩ | ⟨-, hsome⟩
  · obtain ⟨hf, hns, hl⟩ := hs.of_mem_select hsel
    have hat : PairedAt s' ns tenant m.name p.key :=
      ⟨hns ns rfl, p, hf, (hp' hf).satisfies_iff.1 hl, hid⟩
    rw [← hat.key_eq hs hp']
    exact hat
  · obtain ⟨p, hf⟩ := Option.isSome_iff_exists.1 hsome
    refine ⟨rfl, p, hf, ?_⟩
    rcases hst.made _ p hf with h | ⟨t, m', c, v, rfl, rfl⟩
    · exact hfree p h
    · have hk : Naming.pairing t m' = Naming.pairing t m.name := congrArg Key.name (hs hf)
      exact ⟨rfl, Naming.pairing_inj.1 hk⟩

/-- Once a tenant is resolved, a microservice of its namespace is paired with it exactly once if and
only if the name of that pairing was not held by a pairing of other ids. -/
theorem existsUnique_pairedAt_iff {s s' : Store} {t : Tenant} {n : Nat} {ns : String}
    (hs : s.Reached) (hp : s.Shaped)
    (hns : t.metadata.ns = some ns) (h : (resolveTenant t).run s = (.ok n, s'))
    {m : Microservice} (hm : m ∈ s'.select .microservice (some ns) ∅) :
    (∃! key, PairedAt s' ns t.name m.name key) ↔
      ∀ p, s.find? .pairing (.inSpace ns (Naming.pairing t.name m.name)) = some p →
        p.content.tenantId = t.name ∧ p.content.microserviceId = m.name := by
  obtain ⟨ns', hns', hst, hc⟩ := run_resolveTenant_ok h
  rw [hns] at hns'
  cases hns'
  have hs' : s'.Filed := by
    have hr := (hs.run (resolveTenant t)).filed
    rwa [h] at hr
  constructor
  · rintro ⟨key, hat, -⟩ p hf
    have hk := hat.key_eq hs' (hst.shaped hp)
    subst hk
    obtain ⟨-, q, hq, hids⟩ := hat
    rw [hst.kept _ p hf] at hq
    cases hq
    exact hids
  · intro hfree
    exact ⟨_, hc.pairedAt hs' hp hst hm hfree, fun key hat => hat.key_eq hs' (hst.shaped hp)⟩

section meeting

def bareTenant (id : String) : Tenant :=
  { metadata := { name := some id, ns := some "dc1" }, content := { name := id } }

def bareMicroservice (id : String) : Microservice where
  metadata := { name := some id, ns := some "dc1" }
  content := { name := id, functionalArea := id, image := "image", configurationId := "base" }

def bareInstance : Instance where
  metadata := { name := some "dc1" }
  content := { name := "dc1", configurationId := "base" }

def bareTemplate : MicroserviceTemplate where
  metadata := { name := some "base" }
  content := { configuration := .empty }

def declared : Store :=
  [.create .microserviceTemplate bareTemplate, .create .microservice (bareMicroservice "b-c"),
    .create .microservice (bareMicroservice "c")].foldl (fun s (c : Call) => (s.perform c).2) {}

theorem reached_declared : declared.Reached := .call _ (.call _ (.call _ .fresh))

/-- The tenant `a` is paired with both. -/
def crowded : Store := ((resolveTenant (bareTenant "a")).run declared).2

theorem reached_crowded : crowded.Reached := reached_declared.run _

theorem shaped_crowded : crowded.Shaped := by
  have h : (resolveTenant (bareTenant "a")).run declared = (.ok 2, crowded) := rfl
  obtain ⟨ns, -, hst, -⟩ := run_resolveTenant_ok h
  exact hst.shaped fun key p hf => by cases hf

/-- The tenant `a-b` is resolved after it. -/
def met : Store := ((resolveTenant (bareTenant "a-b")).run crowded).2

theorem run_met : (resolveTenant (bareTenant "a-b")).run crowded = (.ok 1, met) := rfl

theorem select_met : met.select .microservice (some "dc1") ∅ =
    [(bareMicroservice "b-c").withVersion (some "2"),
      (bareMicroservice "c").withVersion (some "3")] := rfl

/-- The name of its pairing with `b-c` was free. -/
theorem existsUnique_pairedAt_met :
    crowded.Reached ∧ crowded.Shaped ∧ ∃! key, PairedAt met "dc1" "a-b" "b-c" key := by
  refine ⟨reached_crowded, shaped_crowded, ?_⟩
  have hm : (bareMicroservice "b-c").withVersion (some "2") ∈
      met.select .microservice (some "dc1") ∅ := by simp [select_met]
  have hfree : crowded.find? .pairing (.inSpace "dc1" (Naming.pairing "a-b" "b-c")) = none := rfl
  refine (existsUnique_pairedAt_iff reached_crowded shaped_crowded rfl run_met hm).2 fun p hp => ?_
  exact absurd (hfree.symm.trans hp) (by simp)

/-- The name of its pairing with `c` was held by the pairing of `a` with `b-c`. -/
theorem not_forall_existsUnique_pairedAt :
    ¬∀ (s s' : Store) (t : Tenant) (n : Nat) (ns : String) (m : Microservice), s.Reached →
      s.Shaped → t.metadata.ns = some ns → (resolveTenant t).run s = (.ok n, s') →
      m ∈ s'.select .microservice (some ns) ∅ → ∃! key, PairedAt s' ns t.name m.name key := by
  intro h
  have hm : (bareMicroservice "c").withVersion (some "3") ∈
      met.select .microservice (some "dc1") ∅ := by simp [select_met]
  obtain ⟨key, ⟨-, p, hp, ht, hid⟩, -⟩ := h crowded met (bareTenant "a-b") 1 "dc1" _
    reached_crowded shaped_crowded rfl run_met hm
  have hall : ∀ e ∈ met.pairings.entries,
      ¬(e.2.content.tenantId = "a-b" ∧ e.2.content.microserviceId = "c") := by decide
  exact hall _ (SortedMap.find?_eq_some_iff.1 hp) ⟨ht, hid⟩

end meeting

end Matrix
end TenantOperator
