import Mathlib.Data.List.Induction
import TenantOperator.Proofs.Areas.Sourced

/-! Validity of the areas in bundles and routing tables. Only the reconcile of a microservice
validates its functional area, while every reconcile that writes a tenant's bundle or table takes
the areas as they are stored; so the two are valid as long as the tenant uses valid areas whenever
they are written. -/
namespace TenantOperator
open Program Store

/-- Calls that make no pairing out of shape. -/
def Call.KeepsShape (c : Call) : Prop := ∀ s : Store, s.Shaped → (s.perform c).2.Shaped

theorem Call.keepsShape_of_not_puts {c : Call} (hc : ∀ key, ¬c.Puts .pairing key) :
    c.KeepsShape := by
  intro s hs key p hp
  rcases s.perform_eq c with he | ⟨e, l, he⟩ <;> rw [he] at hp
  · rcases s.answer_snd c with h | ⟨k, r, hput, h⟩ | ⟨k, key', -, h⟩ <;> rw [h] at hp
    · exact hs hp
    · rw [find?_put_of_ne] at hp
      · exact hs hp
      · rintro ⟨rfl, rfl⟩
        exact hc _ hput
    · by_cases hk : Kind.pairing = k ∧ key = key'
      · obtain ⟨rfl, rfl⟩ := hk
        rw [find?_remove_self] at hp
        cases hp
      · rw [find?_remove_of_ne _ hk] at hp
        exact hs hp
  · rw [find?_setFaults] at hp
    exact hs hp

theorem Call.keepsShape_forPair (ns tenant m : String) (c : Configuration) :
    (Call.create .pairing (Pairing.forPair ns tenant m c)).KeepsShape := by
  intro s hs key p hp
  rcases s.perform_create_cases (Pairing.forPair ns tenant m c) with ⟨e, l, he⟩ | ⟨-, he⟩ <;>
    rw [he] at hp
  · rw [find?_setFaults] at hp
    exact hs hp
  · by_cases hk : key = (Pairing.forPair ns tenant m c).key
    · subst hk
      rw [find?_put_self] at hp
      cases hp
      exact Pairing.shaped_forPair ..
    · rw [find?_put_of_ne _ (by simp [hk])] at hp
      exact hs hp

theorem Program.Within.keepsShape {α : Type} {p : Program α} {P : Kind → Key → Prop}
    (h : p.Within P) (hP : ∀ key, ¬P .pairing key) : p.Every Call.KeepsShape :=
  h.mono fun _ hc => Call.keepsShape_of_not_puts fun key hput => hP key (hc _ _ (Or.inl hput))

namespace Reconcile

theorem steps_keepsShape (st : Settings) : Steps st fun _ p => p.Every Call.KeepsShape where
  done _ := trivial
  bind := every_bind
  read hc := every_perform (Call.keepsShape_of_not_puts fun key hput => hc _ key (Or.inl hput))
  delete _ _ := every_perform (Call.keepsShape_of_not_puts fun _ hput => hput)
  makePairing ns tenant m c := every_ensureCreated (Call.keepsShape_forPair ns tenant m c)
  makeService _ _ _ := (Workload.within_ensureCreated _).keepsShape (by simp)
  makeDeployment _ _ _ := (Workload.within_ensureCreated _).keepsShape (by simp)
  makeSpace _ := (Workload.within_ensureCreated _).keepsShape (by simp)
  makeBundle _ _ := (Workload.within_ensureCreated _).keepsShape (by simp)
  sync ns tenant := (Teardown.within_syncTenant st ns tenant).keepsShape (by simp [Bundle.Shared])
  publish ns tenant area c :=
    (within_publish st ns tenant area c).keepsShape (by simp [Bundle.Shared])

theorem shaped_reconcile (st : Settings) (r : ReconcileRequest) {s : Store} (hs : s.Filed)
    (hshape : s.Shaped) : ((reconcile st r).run s).2.Shaped :=
  (((steps_keepsShape st).reconcile r).run (fun s _ hi hc => hc s hi) hs hshape).1

theorem sourced_reconcile (st : Settings) (r : ReconcileRequest) {s : Store} (hs : s.Filed)
    (hshape : s.Shaped) (ns tenant : String) :
    Sourced st ns tenant s ((reconcile st r).run s).2 := by
  obtain ⟨x, l, hx, hr⟩ := (steadfast_reconcile st r).passes_run hs
  have hsrc := sourced_of_passes_reconcile st hs.calm_setFaults
    (fun key p hp => @hshape key p hp) hx ns tenant
  rw [hr]
  exact ⟨hsrc.table, hsrc.entries⟩

end Reconcile

theorem Routing.mem_paths_of_kept {s x : Store} {ns tenant path : String}
    (h : x.find? .ingress (tableKey ns tenant) = s.find? .ingress (tableKey ns tenant) ∨
      x.find? .ingress (tableKey ns tenant) = none) (hpath : path ∈ paths x ns tenant) :
    path ∈ paths s ns tenant := by
  rcases h with hsame | hnone
  · rwa [paths_congr hsame] at hpath
  · rw [paths, hnone] at hpath
    cases hpath

namespace Store
variable {st : Settings} {s x : Store} {ns tenant : String}

/-- Every entry of a tenant's bundle and every path of its table is of a valid area. -/
def ValidAreas (s : Store) : Prop :=
  ∀ ns tenant,
    (∀ area, (Bundle.entries s ns tenant).contains area →
      MicroserviceSpec.validateArea area = .ok ()) ∧
    ∀ path ∈ Routing.paths s ns tenant, ∃ area, MicroserviceSpec.validateArea area = .ok () ∧
      Naming.routingPath ns tenant area = path

/-- All areas that a tenant uses are valid. -/
def UsesValid (ns tenant : String) (s : Store) : Prop :=
  ∀ area ∈ s.areas ns tenant, MicroserviceSpec.validateArea area = .ok ()

def Rewritten (k : Kind) (key : Key) (s x : Store) : Prop :=
  (x.find? k key).isSome ∧ x.find? k key ≠ s.find? k key

theorem find?_of_not_rewritten {k : Kind} {key : Key} (h : ¬Rewritten k key s x) :
    x.find? k key = s.find? k key ∨ x.find? k key = none := by
  cases hx : x.find? k key with
  | none => exact Or.inr rfl
  | some r => exact Or.inl (Classical.not_not.1 fun hne => h ⟨by rw [hx]; rfl, by rwa [hx]⟩)

/-- A tenant's bundle and table get valid areas if the tenant uses no others when they are
written. -/
theorem ValidAreas.sourced (h : s.ValidAreas) (hsrc : ∀ ns tenant, Sourced st ns tenant s x)
    (hw : ∀ ns tenant k key, Bundle.Shared ns tenant k key → Rewritten k key s x →
      x.UsesValid ns tenant) : x.ValidAreas := by
  intro ns tenant
  by_cases hre : ∃ k key, Bundle.Shared ns tenant k key ∧ Rewritten k key s x
  · obtain ⟨k, key, hk, hre⟩ := hre
    have huse := hw ns tenant k key hk hre
    refine ⟨fun area hc => ?_, fun path hpath => ?_⟩
    · exact ((hsrc ns tenant).entries area hc).elim ((h ns tenant).1 area) (huse area)
    · rcases or_assoc.2 (hsrc ns tenant).table with hkept | hcurrent
      · exact (h ns tenant).2 path (Routing.mem_paths_of_kept hkept hpath)
      · obtain ⟨area, harea, rfl⟩ := Routing.exists_of_mem_paths hcurrent hpath
        exact ⟨area, huse area harea, rfl⟩
  · have hthin : Thinned ns tenant s x := fun k key hk =>
      find?_of_not_rewritten fun hr => hre ⟨k, key, hk, hr⟩
    refine ⟨fun area hc => (h ns tenant).1 area (hthin.contains hc), fun path hpath => ?_⟩
    exact (h ns tenant).2 path (Routing.mem_paths_of_kept (hthin _ _ (Or.inr ⟨rfl, rfl⟩)) hpath)

theorem ValidAreas.usesValid (h : x.ValidAreas) (hsrc : Sourced st ns tenant s x)
    (hre : Rewritten .ingress (Routing.tableKey ns tenant) s x) : x.UsesValid ns tenant := by
  rcases hsrc.table with hsame | hnone | hcurrent
  · exact absurd hsame hre.2
  · have hsome := hre.1
    rw [hnone] at hsome
    cases hsome
  · intro area harea
    obtain ⟨p, hp, rfl⟩ := List.mem_map.1 harea
    obtain ⟨area, hv, hpath⟩ := (h ns tenant).2 _ (Routing.mem_paths_of_current hcurrent hp)
    rwa [← Naming.routingPath_inj.1 hpath]

inductive Act where
  | reconcile (r : ReconcileRequest)
  | user (c : Call)

def act (st : Settings) (s : Store) : Act → Store
  | .reconcile r => ((TenantOperator.reconcile st r).run s).2
  | .user c => (s.perform c).2

def acts (st : Settings) (s : Store) (as : List Act) : Store := as.foldl (act st) s

/-- Users leave derived objects alone. -/
def Act.Declares (a : Act) : Prop :=
  ∀ c, a = .user c → ∀ k key, c.Writes k key → k.Declared

theorem acts_concat (st : Settings) (s : Store) (as : List Act) (a : Act) :
    s.acts st (as ++ [a]) = (s.acts st as).act st a :=
  List.foldl_append

theorem validAreas_of_declared (h : ∀ k key, (s.find? k key).isSome → k.Declared) :
    s.ValidAreas := by
  refine fun ns tenant => ⟨fun area hc => ?_, fun path hpath => ?_⟩
  · have hsome := Bundle.isSome_of_contains hc
    rw [find?_eq_none_of_declared h (by simp [Kind.Declared])] at hsome
    cases hsome
  · rw [Routing.paths, find?_eq_none_of_declared h (by simp [Kind.Declared])] at hpath
    cases hpath

theorem agreeOff_user (s : Store) {c : Call} (h : Act.Declares (.user c)) :
    AgreeOff (fun k _ => k.Declared) s (s.perform c).2 :=
  fun _ _ hk => s.find?_perform_of_not_writes fun hw => hk (h c rfl _ _ hw)

theorem ValidAreas.user (h : s.ValidAreas) {c : Call} (hc : Act.Declares (.user c)) :
    (s.perform c).2.ValidAreas := by
  have hkept (ns tenant : String) (k : Kind) (key : Key) (hk : Bundle.Shared ns tenant k key) :
      (s.perform c).2.find? k key = s.find? k key :=
    agreeOff_user s hc _ _ hk.not_declared
  have hsrc (ns tenant : String) : Sourced {} ns tenant s (s.perform c).2 :=
    .of_thinned fun k key hk => Or.inl (hkept ns tenant k key hk)
  exact h.sourced hsrc fun ns tenant k key hk hre => absurd (hkept ns tenant k key hk) hre.2

theorem sound_acts (st : Settings) {as : List Act} (has : ∀ a ∈ as, a.Declares) (hs : s.Filed)
    (hshape : s.Shaped) : (s.acts st as).Filed ∧ (s.acts st as).Shaped := by
  induction as generalizing s with
  | nil => exact ⟨hs, hshape⟩
  | cons a as ih =>
    have has' : ∀ b ∈ as, b.Declares := fun b hb => has b (List.mem_cons_of_mem a hb)
    cases a with
    | reconcile r =>
      exact ih has' (((Reconcile.steps_keepsShape st).reconcile r).run (I := fun _ => True)
        (fun _ _ _ _ => trivial) hs trivial).2 (Reconcile.shaped_reconcile st r hs hshape)
    | user c =>
      refine ih has' (hs.perform c) fun key p hp => ?_
      replace hp : (s.perform c).2.find? .pairing key = some p := hp
      rw [s.agreeOff_user (has _ List.mem_cons_self) _ _ (by simp [Kind.Declared])] at hp
      exact hshape hp

/-- Reconciles and users take turns on a store of declared entities, the users leave derived objects
alone, and calls may fail. Bundles and tables hold valid areas only, as long as every reconcile that
writes the bundle or the table of a tenant leaves it using valid areas only. The other way round,
when they always hold valid areas only, so does a tenant use them whenever its table is written. -/
theorem validAreas_acts (st : Settings) {s : Store} (hs : s.Reached)
    (hd : ∀ k key, (s.find? k key).isSome → k.Declared) {as : List Act}
    (has : ∀ a ∈ as, a.Declares) :
    ((∀ l r, l ++ [.reconcile r] <+: as → ∀ ns tenant k key, Bundle.Shared ns tenant k key →
        Rewritten k key (s.acts st l) (s.acts st (l ++ [.reconcile r])) →
          (s.acts st (l ++ [.reconcile r])).UsesValid ns tenant) →
      ∀ l, l <+: as → (s.acts st l).ValidAreas) ∧
    ((∀ l, l <+: as → (s.acts st l).ValidAreas) →
      ∀ l r, l ++ [.reconcile r] <+: as → ∀ ns tenant,
        Rewritten .ingress (Routing.tableKey ns tenant) (s.acts st l)
          (s.acts st (l ++ [.reconcile r])) →
        (s.acts st (l ++ [.reconcile r])).UsesValid ns tenant) := by
  have hsound (l : List Act) (hl : l <+: as) : (s.acts st l).Filed ∧ (s.acts st l).Shaped :=
    sound_acts st (fun a ha => has a (hl.subset ha)) hs.filed (shaped_of_declared hd)
  constructor
  · intro hw l
    induction l using List.reverseRecOn with
    | nil => exact fun _ => validAreas_of_declared hd
    | append_singleton l a ih =>
      intro hl
      have hpre : l <+: as := (List.prefix_append l [a]).trans hl
      obtain ⟨hfiled, hshape⟩ := hsound l hpre
      rw [acts_concat]
      cases a with
      | reconcile r =>
        refine (ih hpre).sourced (Reconcile.sourced_reconcile st r hfiled hshape) ?_
        have hr := hw l r hl
        rwa [acts_concat] at hr
      | user c => exact (ih hpre).user (has _ (hl.subset (by simp)))
  · intro hv l r hl ns tenant hre
    obtain ⟨hfiled, hshape⟩ := hsound l ((List.prefix_append l _).trans hl)
    have hsrc : Sourced st ns tenant (s.acts st l) (s.acts st (l ++ [.reconcile r])) := by
      rw [acts_concat]
      exact Reconcile.sourced_reconcile st r hfiled hshape ns tenant
    exact (hv _ hl).usesValid hsrc hre

section slash

theorem usesValid_of_microservices
    (h : ∀ e ∈ s.microservices.entries,
      MicroserviceSpec.validateArea e.2.content.functionalArea = .ok ()) :
    s.UsesValid ns tenant := by
  intro area harea
  obtain ⟨p, -, m, hm, rfl⟩ := mem_areas.1 harea
  exact h _ (SortedMap.find?_eq_some_iff.1 hm)

/-- The tenant is paired and its pairing with `c` gets children, entry and path. -/
def orderly : List Act :=
  [.reconcile ⟨.microservice, .inSpace "dc1" "c"⟩,
    .reconcile ⟨.pairing, .inSpace "dc1" (Naming.pairing "a" "c")⟩]

theorem validAreas_orderly :
    (Pool.staffed.acts {} orderly).ValidAreas ∧
      (Pool.staffed.acts {} [.reconcile ⟨.microservice, .inSpace "dc1" "c"⟩]).UsesValid
        "dc1" "a" := by
  have has : ∀ a ∈ orderly, a.Declares := by
    rintro a ha c rfl
    simp [orderly] at ha
  obtain ⟨hsafe, hneeded⟩ :=
    validAreas_acts {} Pool.reached_staffed Reconcile.declared_staffed has
  have hvalid := hsafe fun l r hl ns tenant _ _ _ _ => ?_
  · refine ⟨hvalid _ (List.prefix_refl _), hneeded hvalid [] _ ⟨[_], rfl⟩ "dc1" "a" ⟨rfl, ?_⟩⟩
    intro h
    cases h
  · -- All microservices that are there have valid areas.
    refine usesValid_of_microservices ?_
    rcases List.prefix_cons_iff.1 hl with hnil | ⟨l', hl', hrest⟩
    · simp at hnil
    rw [hl']
    rcases List.prefix_cons_iff.1 hrest with rfl | ⟨l'', rfl, hnil⟩
    · decide
    · obtain rfl := List.prefix_nil.1 hnil
      decide

/-- An edit of `c` that its reconcile would refuse. -/
def slashed : Microservice where
  metadata := { name := some "c", ns := some "dc1" }
  content := { name := "c", functionalArea := "c/d", image := "image", configurationId := "base" }

/-- The tenant and its pairing are reconciled, and the microservice is not. -/
def careless : List Act :=
  [.user (.update .microservice slashed), .reconcile ⟨.tenant, .inSpace "dc1" "a"⟩,
    .reconcile ⟨.pairing, .inSpace "dc1" (Naming.pairing "a" "c")⟩]

theorem not_forall_validAreas :
    ¬∀ (st : Settings) (s : Store) (as : List Act), s.Reached → s.faults = [] →
      (∀ k key, (s.find? k key).isSome → k.Declared) →
      (∀ c, .user c ∈ as → (∃ t : Tenant, c = .create .tenant t ∨ c = .update .tenant t) ∨
        ∃ m : Microservice, c = .create .microservice m ∨ c = .update .microservice m) →
      (s.acts st as).ValidAreas := by
  intro h
  have hvalid := h {} Pool.staffed careless Pool.reached_staffed rfl Reconcile.declared_staffed
    fun c hc => by
      obtain rfl : c = .update .microservice slashed := by simpa [careless] using hc
      exact Or.inr ⟨slashed, Or.inr rfl⟩
  have harea := (hvalid "dc1" "a").1 "c/d" rfl
  cases harea

end slash

end Store
end TenantOperator
