import TenantOperator.Proofs.Interruption.Akin
import TenantOperator.Proofs.Tours.Standing

/-! The tour of a tenant: its reconcile and those of all of its pairings. A tour that ended well can
be made again with the same outcomes, and it writes nothing but the bundles that pairings of one
area contend for: each of them sets its own entry, and the last one restores what was there. -/
namespace TenantOperator
open Program Store Reconcile

variable {st : Settings} {s s' : Store} {ns tenant u : String} {os : List Outcome}

/-- Reconciles the tenant, and then its pairings as they are stored. -/
def tour (st : Settings) (ns tenant : String) : Program (List Outcome) := do
  let o ← reconcile st ⟨.tenant, .inSpace ns tenant⟩
  let ps ← Program.list .pairing (some ns) (Naming.tenantSelector tenant)
  let os ← reconcileAll st (ps.map request)
  return o :: os

/-- Two pairings of the tenant have different entries for one area of a bundle. -/
def Store.Contended (s : Store) (ns tenant u : String) : Prop :=
  ∃ p ∈ s.resolved ns tenant, ∃ q ∈ s.resolved ns tenant,
    p.pairing.content.tenantId = u ∧ q.pairing.content.tenantId = u ∧ p.area = q.area ∧
      p.entry ≠ q.entry

instance (s : Store) (ns tenant u : String) : Decidable (s.Contended ns tenant u) :=
  inferInstanceAs (Decidable (∃ p ∈ s.resolved ns tenant, ∃ q ∈ s.resolved ns tenant,
    p.pairing.content.tenantId = u ∧ q.pairing.content.tenantId = u ∧ p.area = q.area ∧
      p.entry ≠ q.entry))

/-- The pairings in the order of a tour. -/
def Store.toured (s : Store) (ns tenant : String) : List ResolvedPairing :=
  (s.select .pairing (some ns) (Naming.tenantSelector tenant)).filterMap (s.resolve? ns)

theorem Store.mem_resolved {q : ResolvedPairing} :
    q ∈ s.resolved ns tenant ↔ q ∈ s.toured ns tenant :=
  ResolvedPairing.mem_sortByName

theorem Store.Filed.listed_select (hs : s.Filed) (ns tenant : String) :
    Listed s ns (s.select .pairing (some ns) (Naming.tenantSelector tenant)) := by
  intro p hp
  obtain ⟨hf, hns, -⟩ := hs.of_mem_select hp
  exact ⟨hns ns rfl, hf⟩

namespace Reconcile

theorem Onward.toured_eq (h : Onward st ns s s') (tenant : String) :
    s'.toured ns tenant = s.toured ns tenant := by
  rw [toured, toured, h.select_pairing, h.resolve?_eq]

theorem Onward.complete (h : Onward st ns s s') (hc : Matrix.Complete s ns tenant) :
    Matrix.Complete s' ns tenant := by
  have hms : s'.select .microservice (some ns) ∅ = s.select .microservice (some ns) ∅ :=
    select_congr fun key m _ => by rw [h.find?_eq]
  intro m hm
  rw [hms] at hm
  rw [h.select_pairing, h.find?_eq, h.find?_eq]
  exact hc m hm

structure Toured (st : Settings) (s : Store) (ns tenant : String) : Prop where
  calm : s.Calm
  paired : ∃ t, s.find? .tenant (.inSpace ns tenant) = some t ∧ t.metadata.ns = some ns ∧
    Matrix.Complete s ns t.name
  standing : ∀ p ∈ s.select .pairing (some ns) (Naming.tenantSelector tenant), Standing st s ns p
  overwritten : ∃ d : String → Labels, ∀ u, Bundle.entries s ns u =
    Bundle.overwrite (d u) ((s.toured ns tenant).filter (·.pairing.content.tenantId = u))

theorem run_tenant_converged (hs : s.Calm)
    (h : (Reconcile.tenant st ns (.inSpace ns tenant)).run s = (.ok .converged, s')) :
    ∃ t, s.find? .tenant (.inSpace ns tenant) = some t ∧ t.metadata.ns = some ns ∧
      Matrix.Stage ns (· = t.name) s s' ∧ Matrix.Complete s' ns t.name := by
  rw [Reconcile.tenant, run_bind_of_ok (hs.run_get _)] at h
  cases ht : s.find? .tenant (.inSpace ns tenant) with
  | none =>
    rw [ht] at h
    dsimp only at h
    rw [run_bind_ok] at h
    obtain ⟨_, s₁, -, h⟩ := h
    cases h
  | some t =>
    rw [ht] at h
    dsimp only at h
    rw [run_bind_ok] at h
    obtain ⟨n, s₁, hn, h⟩ := h
    cases h
    obtain ⟨space, hspace, hst, hcomplete⟩ := Matrix.run_resolveTenant_ok hn
    have hns : t.metadata.ns = some ns := congrArg Key.ns (hs.filed ht)
    obtain rfl : space = ns := Option.some.inj (hspace.symm.trans hns)
    exact ⟨t, rfl, hns, hst, hcomplete⟩

/-- Every bundle has the last entry of each area. -/
theorem toured_of_run (hs : s.Calm) (h : (tour st ns tenant).run s = (.ok os, s'))
    (hall : ∀ o ∈ os, o = .converged) :
    Toured st s' ns tenant ∧ os = .converged ::
      (s'.select .pairing (some ns) (Naming.tenantSelector tenant)).map fun _ => .converged := by
  rw [tour, run_bind_ok] at h
  obtain ⟨o, s₁, ho, h⟩ := h
  rw [run_bind_ok] at h
  obtain ⟨ps, s₂, hps, h⟩ := h
  obtain ⟨rfl, rfl⟩ := run_list_ok hps
  rw [run_bind_ok] at h
  obtain ⟨os', s₃, hos, h⟩ := h
  cases h
  obtain rfl : o = .converged := hall o List.mem_cons_self
  obtain ⟨t, ht, hns, hst, hcomplete⟩ := run_tenant_converged hs ho
  have hs₂ := hst.calm hs
  obtain ⟨rfl, hon, hstanding, hentries⟩ :=
    run_reconcileAll_ok hs₂ (hs₂.filed.listed_select ns tenant) hos
  rw [← hon.select_pairing] at hstanding ⊢
  refine ⟨⟨hon.calm hs₂, ⟨t, ?_, hns, hon.complete hcomplete⟩, hstanding,
    Bundle.entries s₂ ns, fun u => ?_⟩, rfl⟩
  · rw [hon.find?_eq, hst.find?_eq, ht]
  · rw [hentries, hon.toured_eq, toured]

theorem Toured.run (h : Toured st s ns tenant) :
    (tour st ns tenant).run s =
      (.ok (.converged ::
          (s.select .pairing (some ns) (Naming.tenantSelector tenant)).map fun _ => .converged),
        (s.toured ns tenant).foldl (enter ns) s) := by
  obtain ⟨t, ht, hns, hcomplete⟩ := h.paired
  obtain ⟨n, hn⟩ := Matrix.rests_resolveTenant h.calm hns hcomplete
  have htenant : (reconcile st ⟨.tenant, .inSpace ns tenant⟩).Rests s .converged :=
    Rests.bind (h.calm.rests_get ht) (Rests.bind hn rfl)
  have hpairings :=
    run_reconcileAll_standing h.calm (h.calm.filed.listed_select ns tenant) h.standing
  rw [tour, run_bind_of_ok htenant, run_bind_of_ok (h.calm.run_list ..), run_bind_of_ok hpairings]
  rfl

theorem agreeOff_foldl_enter (ns : String) (s : Store) (qs : List ResolvedPairing) :
    AgreeOff (fun k key => k = .configMap ∧ ∃ u, key = Bundle.tenantKey ns u) s
      (qs.foldl (enter ns) s) := by
  induction qs generalizing s with
  | nil => exact .refl _ s
  | cons q qs ih =>
    exact ((agreeOff_enter ns s q).mono fun k key hk => ⟨hk.1, _, hk.2⟩).trans (ih _)

theorem Toured.same (h : Toured st s ns tenant) :
    s.Same ((s.toured ns tenant).foldl (enter ns) s) := by
  intro k key
  by_cases hk : k = .configMap ∧ ∃ u, key = Bundle.tenantKey ns u
  · obtain ⟨rfl, u, rfl⟩ := hk
    obtain ⟨d, hd⟩ := h.overwritten
    replace hd := hd u
    by_cases hu : ∃ q ∈ s.toured ns tenant, q.pairing.content.tenantId = u
    · obtain ⟨q, hq, hqu⟩ := hu
      have hmem : q.area ∈ ((s.toured ns tenant).filter (·.pairing.content.tenantId = u)).map
          (·.area) := List.mem_map_of_mem (List.mem_filter.2 ⟨hq, by simpa using hqu⟩)
      obtain ⟨r, -, -, hfind⟩ := Bundle.exists_find?_overwrite hmem
      have hcontains : (Bundle.entries s ns u).contains q.area := by
        rw [hd, SortedMap.contains, hfind]
        rfl
      obtain ⟨cm, hcm⟩ := Option.isSome_iff_exists.1 (Bundle.isSome_of_contains hcontains)
      rw [Bundle.entries_of_some hcm] at hcontains hd
      have hbears := bears_foldl_enter (s.toured ns tenant)
        (hcm ▸ Bundle.bears_self hcontains)
      rw [hd, Bundle.overwrite_overwrite, ← hd] at hbears
      rw [hcm]
      exact (Bundle.bears_self hcontains).withVersion_eq hbears
    · rw [find?_foldl_enter_of_find? fun q hq hqu => absurd ⟨q, hq, hqu⟩ hu]
  · rw [agreeOff_foldl_enter ns s _ k key hk]

/-- Another tour does not write the bundle if and only if the pairings of each area agree. -/
theorem Toured.find?_eq_iff (h : Toured st s ns tenant) (hsound : s.Sound) (u : String) :
    ((s.toured ns tenant).foldl (enter ns) s).find? .configMap (Bundle.tenantKey ns u) =
        s.find? .configMap (Bundle.tenantKey ns u) ↔ ¬s.Contended ns tenant u := by
  obtain ⟨d, hd⟩ := h.overwritten
  rw [find?_foldl_enter_eq_iff h.calm hsound]
  constructor
  · rintro hall ⟨p, hp, q, hq, hpu, hqu, harea, hne⟩
    have hfind := hall p (mem_resolved.1 hp) hpu
    rw [harea, hall q (mem_resolved.1 hq) hqu] at hfind
    exact hne (Option.some.inj hfind).symm
  · intro hnot q hq hqu
    have hmem : q ∈ (s.toured ns tenant).filter (·.pairing.content.tenantId = u) :=
      List.mem_filter.2 ⟨hq, by simpa using hqu⟩
    rw [hd]
    refine Bundle.find?_overwrite_of_agreed (fun p hp r hr harea => ?_) hmem _
    obtain ⟨hp, hpu⟩ := List.mem_filter.1 hp
    obtain ⟨hr, hru⟩ := List.mem_filter.1 hr
    by_contra hne
    exact hnot ⟨p, mem_resolved.2 hp, r, mem_resolved.2 hr, by simpa using hpu, by simpa using hru,
      harea, hne⟩

end Reconcile

/-- A tour of which everything converged, made again, has the same outcomes and leaves the contents
of every object. It leaves the objects themselves, too, but for the bundles that pairings of the
tenant contend for: each of these gets a new version. -/
theorem run_tour_again (st : Settings) (hs : s.Reached) (hf : s.faults = [])
    (h : (tour st ns tenant).run s = (.ok os, s')) (hall : ∀ o ∈ os, o = .converged) :
    ∃ s'', (tour st ns tenant).run s' = (.ok os, s'') ∧ s'.Same s'' ∧
      ∀ k key, s''.find? k key = s'.find? k key ↔
        ¬∃ u, k = .configMap ∧ key = Bundle.tenantKey ns u ∧ s'.Contended ns tenant u := by
  obtain ⟨htoured, rfl⟩ := toured_of_run ⟨hs.filed, hf⟩ h hall
  have hsound : s'.Sound := by
    have hr := (hs.run (tour st ns tenant)).sound
    rwa [h] at hr
  refine ⟨_, htoured.run, htoured.same, fun k key => ?_⟩
  by_cases hk : k = .configMap ∧ ∃ u, key = Bundle.tenantKey ns u
  · obtain ⟨rfl, u, rfl⟩ := hk
    rw [htoured.find?_eq_iff hsound u]
    simp [Bundle.tenantKey_inj]
  · have hsame := agreeOff_foldl_enter ns s' (s'.toured ns tenant) k key hk
    simp only [hsame, true_iff]
    rintro ⟨u, rfl, rfl, -⟩
    exact hk ⟨rfl, u, rfl⟩

section rivals

/-- A microservice of the area `x` with a template of its own. -/
def rival (id : String) : Microservice where
  metadata := { name := some id, ns := some "dc1" }
  content := { name := id, functionalArea := "x", image := "image", configurationId := id }

def rivalTemplate (id : String) : MicroserviceTemplate where
  metadata := { name := some id }
  content := { configuration := .obj [("from", .str id)] }

def rivals : Store :=
  [.create .inst Matrix.bareInstance, .create .microserviceTemplate (rivalTemplate "b"),
    .create .microserviceTemplate (rivalTemplate "c"), .create .microservice (rival "b"),
    .create .microservice (rival "c"), .create .tenant (Matrix.bareTenant "a")].foldl
      (fun s (c : Call) => (s.perform c).2) {}

theorem reached_rivals : rivals.Reached :=
  .call _ (.call _ (.call _ (.call _ (.call _ (.call _ .fresh)))))

def touredRivals : Store := ((tour {} "dc1" "a").run rivals).2

theorem run_tour_rivals : (tour {} "dc1" "a").run rivals =
    (.ok [.converged, .converged, .converged], touredRivals) := rfl

theorem contended_touredRivals : touredRivals.Contended "dc1" "a" "a" := by decide

/-- Both entries are set again, and the bundle has a new version. -/
theorem run_tour_again_rivals : rivals.Reached ∧
    (tour {} "dc1" "a").run rivals = (.ok [.converged, .converged, .converged], touredRivals) ∧
    ∃ s'', (tour {} "dc1" "a").run touredRivals =
        (.ok [.converged, .converged, .converged], s'') ∧ touredRivals.Same s'' ∧
      s''.find? .configMap (Bundle.tenantKey "dc1" "a") ≠
        touredRivals.find? .configMap (Bundle.tenantKey "dc1" "a") := by
  obtain ⟨s'', hrun, hsame, hiff⟩ :=
    run_tour_again {} reached_rivals rfl run_tour_rivals (by simp)
  refine ⟨reached_rivals, run_tour_rivals, s'', hrun, hsame, fun h => ?_⟩
  exact (hiff _ _).1 h ⟨"a", rfl, rfl, contended_touredRivals⟩

theorem not_forall_alike_tour :
    ¬∀ (st : Settings) (s s' : Store) (ns tenant : String) (os : List Outcome), s.Reached →
      s.faults = [] → (tour st ns tenant).run s = (.ok os, s') → (∀ o ∈ os, o = .converged) →
      s'.Alike ((tour st ns tenant).run s').2 := by
  intro h
  have hbundle := h {} rivals touredRivals "dc1" "a" _ reached_rivals rfl run_tour_rivals (by simp)
    .configMap (Bundle.tenantKey "dc1" "a")
  have hversion := congrArg (Option.map fun cm => cm.metadata.resourceVersion) hbundle
  exact absurd hversion (by decide)

end rivals

end TenantOperator
