import TenantOperator.Proofs.Interruption.Converging

/-! The loops of the reconciles resume. Left anywhere, the resolver has paired the first of its
microservices; run again it skips some of them, the others rest, and the remaining ones are paired
as they would have been. -/
namespace TenantOperator
open Program Store

namespace Matrix
variable {s s' x : Store} {ns tenant : String} {ms : List Microservice}

theorem pairAll_append (ns tenant : String) (l r : List Microservice) :
    pairAll ns tenant (l ++ r) = do
      let k ← pairAll ns tenant l
      let k' ← pairAll ns tenant r
      return k + k' := by
  induction l with
  | nil =>
    have hzero : (HAdd.hAdd 0 : Nat → Nat) = id := funext Nat.zero_add
    simp [pairAll, hzero]
  | cons m l ih =>
    have hadd (a b : Nat) : (fun c => a + (b + c)) = HAdd.hAdd (a + b) :=
      funext fun c => (Nat.add_assoc a b c).symm
    simp [pairAll, ih, hadd]

theorem reads_templateConfiguration (m : Microservice) :
    (templateConfiguration m).Every Call.Reads :=
  every_bind (reads_getRequired ..) fun _ => trivial

/-- Left anywhere, the loop has paired a first part of its microservices. -/
theorem passes_pairAll (hs : s.Calm) (hx : (pairAll ns tenant ms).Passes s x) :
    ∃ l r k, ms = l ++ r ∧ (pairAll ns tenant l).run s = (.ok k, x) := by
  induction ms generalizing s with
  | nil =>
    cases hx
    exact ⟨[], [], 0, rfl, rfl⟩
  | cons m ms ih =>
    rcases passes_read_bind hs (reads_templateConfiguration m) hx with rfl | ⟨c, hc, hx⟩
    · exact ⟨[], m :: ms, 0, rfl, rfl⟩
    -- One microservice is paired, and the loop goes on with the others.
    have hmade := hs.run_ensureCreated (n := Naming.pairing tenant m.name)
      (r := Pairing.forPair ns tenant m.name c) rfl
    have hcons {l : List Microservice} {k : Nat} (h : (pairAll ns tenant l).run
        (s.ensured (Pairing.forPair ns tenant m.name c)) = (.ok k, x)) :
        ∃ k', (pairAll ns tenant (m :: l)).run s = (.ok k', x) :=
      ⟨_, (run_bind_of_ok hc).trans ((run_bind_of_ok hmade).trans ((run_bind_of_ok h).trans rfl))⟩
    rcases passes_bind.1 hx with hx | ⟨made, s₁, hr, hx⟩
    · rcases passes_ensureCreated hs (m := Naming.pairing tenant m.name) rfl hx with rfl | rfl
      · exact ⟨[], m :: ms, 0, rfl, rfl⟩
      · obtain ⟨k, hk⟩ := hcons (l := []) rfl
        exact ⟨[m], ms, k, rfl, hk⟩
    · cases hmade.symm.trans hr
      obtain ⟨l, r, k, rfl, hk⟩ := ih (hs.ensured _) (passes_bind_done (fun _ => ⟨_, rfl⟩) hx)
      obtain ⟨k', hk'⟩ := hcons hk
      exact ⟨m :: l, r, k', rfl, hk'⟩

theorem run_pairAll_made {k : Nat} (h : (pairAll ns tenant ms).run s = (.ok k, x)) {key : Key}
    {p : Pairing} (hp : x.find? .pairing key = some p) :
    s.find? .pairing key = some p ∨ ∃ m ∈ ms, p.content.microserviceId = m.name := by
  induction ms generalizing s k with
  | nil =>
    cases h
    exact Or.inl hp
  | cons m ms ih =>
    rw [pairAll, run_bind_ok] at h
    obtain ⟨c, s₁, hc, h⟩ := h
    obtain ⟨-, rfl⟩ := run_templateConfiguration_ok hc
    obtain ⟨made, s₂, hm, h⟩ := run_bind_ok.1 h
    obtain ⟨-, rfl⟩ := run_ensureCreated_ok (n := Naming.pairing tenant m.name) rfl hm
    obtain ⟨rest, s₃, hrest, h⟩ := run_bind_ok.1 h
    cases h
    rcases ih hrest with hp | ⟨q, hq, hid⟩
    · rcases eq_of_find?_ensured hp with hp | ⟨-, v, rfl⟩
      · exact Or.inl hp
      · exact Or.inr ⟨m, by simp, rfl⟩
    · exact Or.inr ⟨q, by simp [hq], hid⟩

/-- Whether no pairing of the tenant is found for a microservice. -/
def lacks (s : Store) (ns tenant : String) (m : Microservice) : Bool :=
  !((s.select .pairing (some ns) (Naming.tenantSelector tenant)).map
    fun p => p.content.microserviceId).contains m.name

theorem lacks_iff {m : Microservice} : lacks s ns tenant m ↔
    ∀ p ∈ s.select .pairing (some ns) (Naming.tenantSelector tenant),
      p.content.microserviceId ≠ m.name := by
  simp [lacks]

def unpaired (s : Store) (ns tenant : String) : List Microservice :=
  (s.select .microservice (some ns) ∅).filter (lacks s ns tenant)

theorem run_resolveTenant (hs : s.Calm) {t : Tenant} (hns : t.metadata.ns = some ns) :
    (resolveTenant t).run s = (pairAll ns t.name (unpaired s ns t.name)).run s := by
  simp only [resolveTenant, hns]
  rw [run_bind_of_ok (hs.run_list ..), run_bind_of_ok (hs.run_list ..)]
  rfl

/-- After a first part of the loop, the microservices left to pair are some of that part and all
that come later. -/
theorem unpaired_of_run (hs : s.Calm) {l r : List Microservice}
    (hlr : unpaired s ns tenant = l ++ r) {k : Nat}
    (hk : (pairAll ns tenant l).run s = (.ok k, x)) :
    unpaired x ns tenant = l.filter (lacks x ns tenant) ++ r := by
  have hst := (run_pairAll_ok hk).1
  have hkeep (m : Microservice) (h : lacks x ns tenant m) : lacks s ns tenant m := by
    rw [lacks_iff] at h ⊢
    intro p hp
    obtain ⟨key, hf, hpick⟩ := mem_select.1 hp
    exact h p (mem_select.2 ⟨key, hst.kept key p hf, hpick⟩)
  have hnodup : ((l ++ r).map (·.name)).Nodup := by
    rw [← hlr]
    exact (hs.filed.nodup_names .microservice ns ∅).sublist (List.filter_sublist.map _)
  have hlate : ∀ m ∈ r, lacks x ns tenant m := by
    intro m hm
    have hlack : lacks s ns tenant m :=
      (List.mem_filter.1 (hlr ▸ List.mem_append_right l hm : m ∈ unpaired s ns tenant)).2
    rw [lacks_iff] at hlack ⊢
    intro p hp hid
    obtain ⟨key, hf, hpick⟩ := mem_select.1 hp
    rcases run_pairAll_made hk hf with hf | ⟨m', hm', hid'⟩
    · exact hlack p (mem_select.2 ⟨key, hf, hpick⟩) hid
    · -- Another microservice of this name would be paired by the same loop.
      rw [List.map_append, List.nodup_append] at hnodup
      exact hnodup.2.2 _ (List.mem_map_of_mem hm') _ (List.mem_map_of_mem hm) (hid'.symm.trans hid)
  calc unpaired x ns tenant
      = (s.select .microservice (some ns) ∅).filter (lacks x ns tenant) := by
        rw [unpaired, hst.select_microservice]
    _ = (unpaired s ns tenant).filter (lacks x ns tenant) := by
        rw [unpaired, List.filter_filter]
        refine List.filter_congr fun m _ => ?_
        cases h : lacks x ns tenant m with
        | false => rfl
        | true => rw [hkeep m h]; rfl
    _ = l.filter (lacks x ns tenant) ++ r := by
        rw [hlr, List.filter_append, List.filter_eq_self.2 hlate]

theorem passes_resolveTenant (hs : s.Calm) {t : Tenant} (hns : t.metadata.ns = some ns)
    (hx : (resolveTenant t).Passes s x) :
    (pairAll ns t.name (unpaired s ns t.name)).Passes s x := by
  simp only [resolveTenant, hns] at hx
  rcases passes_read_bind hs (reads_list ..) hx with rfl | ⟨ms, hms, hx⟩
  · exact passes_start ..
  obtain ⟨rfl, -⟩ := run_list_ok hms
  rcases passes_read_bind hs (reads_list ..) hx with rfl | ⟨ps, hps, hx⟩
  · exact passes_start ..
  obtain ⟨rfl, -⟩ := run_list_ok hps
  exact hx

theorem resumes_resolveTenant (hs : s.Calm) (t : Tenant) : (resolveTenant t).Resumes s := by
  cases hns : t.metadata.ns with
  | none =>
    unfold resolveTenant
    rw [hns]
    exact resumes_of_still fun x hx => hx
  | some ns =>
    intro x n s' hx hr
    obtain ⟨l, r, k, hlr, hk⟩ := passes_pairAll hs (passes_resolveTenant hs hns hx)
    obtain ⟨hst, hall⟩ := run_pairAll_ok hk
    rw [run_resolveTenant (hx.calm hs) hns, unpaired_of_run hs hlr hk, pairAll_append] at hr
    obtain ⟨a, s₁, ha, hr⟩ := run_bind_ok.1 hr
    have hpart : ∀ m ∈ l.filter (lacks x ns t.name), _ := fun m hm =>
      hall m ((List.mem_filter.1 hm).1)
    obtain ⟨b, hrest⟩ := rests_pairAll (hx.calm hs) hpart
    cases hrest.symm.trans ha
    obtain ⟨k', s₂, hk', hr⟩ := run_bind_ok.1 hr
    cases hr
    refine ⟨k + k', ?_⟩
    rw [run_resolveTenant hs hns, hlr, pairAll_append, run_bind_of_ok hk, run_bind_of_ok hk']
    rfl

theorem stage_of_passes (hs : s.Calm) {t : Tenant} (hns : t.metadata.ns = some ns)
    (hx : (resolveTenant t).Passes s x) : Stage ns (· = t.name) s x := by
  obtain ⟨l, r, k, -, hk⟩ := passes_pairAll hs (passes_resolveTenant hs hns hx)
  exact (run_pairAll_ok hk).1

end Matrix

namespace Teardown
variable (st : Settings) {s s' x : Store} {ns tenant : String}

def merged (s : Store) (ns tenant : String) : Store :=
  s.upserted (Bundle.tenantKey ns tenant)
    (Bundle.mergeInto (Bundle.candidates (s.resolved ns tenant)))

theorem synced_eq (s : Store) (ns tenant : String) :
    synced st s ns tenant = Routing.rebuilt st (merged s ns tenant) ns tenant := rfl

theorem calm_merged (hs : s.Calm) : (merged s ns tenant).Calm :=
  hs.upserted_of_fits Bundle.fits_mergeInto

theorem passes_syncTenant (hs : s.Calm) (hx : (syncTenant st ns tenant).Passes s x) :
    x = s ∨ x = merged s ns tenant ∨
      (discardIfTenantGone ns tenant).Passes (synced st s ns tenant) x := by
  rcases passes_read_bind hs (reads_resolveForTenant ns tenant) hx with rfl | ⟨ps, hps, hx⟩
  · exact Or.inl rfl
  cases (hs.run_resolveForTenant ns tenant).symm.trans hps
  rcases passes_bind.1 hx with hx | ⟨o, s₁, ho, hx⟩
  · exact (passes_upsert hs Bundle.fits_mergeInto hx).imp id Or.inl
  cases (Bundle.run_sync st ns tenant hs _).symm.trans ho
  right
  rcases passes_bind.1 hx with hx | ⟨o, s₂, ho, hx⟩
  · rcases Routing.passes_rebuild st (calm_merged hs) hx with rfl | rfl
    · exact Or.inl rfl
    · exact Or.inr (passes_start ..)
  cases (Routing.run_rebuild st ns tenant (calm_merged hs)).symm.trans ho
  exact Or.inr (passes_bind_done (fun _ => ⟨_, rfl⟩) hx)

theorem merged_merged (s : Store) (ns tenant : String) :
    merged (merged s ns tenant) ns tenant = merged s ns tenant :=
  upserted_of_none (Bundle.synced_upserted ns tenant s)

theorem synced_merged (s : Store) (ns tenant : String) :
    synced st (merged s ns tenant) ns tenant = synced st s ns tenant := by
  rw [synced_eq, merged_merged, synced_eq]

theorem synced_synced (s : Store) (ns tenant : String) :
    synced st (synced st s ns tenant) ns tenant = synced st s ns tenant :=
  synced_of_settled st ns tenant (settled_synced st ns tenant s)

theorem synced_of_passes (hs : s.Calm) (halive : (s.find? .tenant (.inSpace ns tenant)).isSome)
    (hx : (syncTenant st ns tenant).Passes s x) :
    synced st x ns tenant = synced st s ns tenant := by
  rcases passes_syncTenant st hs hx with rfl | rfl | hx
  · rfl
  · exact synced_merged st s ns tenant
  · have halive₂ : ((synced st s ns tenant).find? .tenant (.inSpace ns tenant)).isSome := by
      rwa [find?_tenant_synced]
    rw [Reconcile.reads_discard_alive (calm_synced st ns tenant hs) halive₂ hx, synced_synced]

theorem resumes_syncTenant_alive (hs : s.Calm)
    (halive : (s.find? .tenant (.inSpace ns tenant)).isSome) :
    (syncTenant st ns tenant).Resumes s := by
  intro x b s' hx hr
  have halive' : (x.find? .tenant (.inSpace ns tenant)).isSome := by
    rwa [(within_syncTenant st ns tenant).passes hs.filed hx _ _ (by simp [Bundle.Shared])]
  cases (run_syncTenant_alive st ns tenant (hx.calm hs) halive').symm.trans hr
  rw [synced_of_passes st hs halive hx]
  exact ⟨true, run_syncTenant_alive st ns tenant hs halive⟩

end Teardown

namespace Reconcile
variable (st : Settings) {s s' x : Store} {ns : String} {ts : List Tenant}

theorem stage_of_passes_sync (hs : s.Calm) {tenant : String}
    (hx : (Teardown.syncTenant st ns tenant).Passes s x) : Matrix.Stage ns (· = tenant) s x :=
  .of_shared (fun _ => hx.calm hs) ((Teardown.within_syncTenant st ns tenant).passes hs.filed hx)

theorem stage_of_run_sync (hs : s.Calm) {tenant : String} {b : Bool}
    (hr : (Teardown.syncTenant st ns tenant).run s = (.ok b, x)) :
    Matrix.Stage ns (· = tenant) s x := by
  have hend := passes_end (Teardown.syncTenant st ns tenant) s
  rw [hr] at hend
  exact stage_of_passes_sync st hs hend

/-- Wherever the loop is left, only its own tenants have changed. -/
theorem stage_of_passes_tenants (hs : s.Calm) (hns : ∀ t ∈ ts, t.metadata.ns = some ns)
    (hx : (tenants st ns ts).Passes s x) : Matrix.Stage ns (· ∈ ts.map (·.name)) s x := by
  induction ts generalizing s with
  | nil =>
    cases hx
    exact .refl ns _ _
  | cons t ts ih =>
    have hown (u : String) (hu : u = t.name) : u ∈ (t :: ts).map (·.name) := by simp [hu]
    have hlater (u : String) (hu : u ∈ ts.map (·.name)) : u ∈ (t :: ts).map (·.name) := by
      simp [List.mem_map.1 hu]
    rcases passes_bind.1 hx with hx | ⟨n, s₁, hn, hx⟩
    · exact (Matrix.stage_of_passes hs (hns t (by simp)) hx).mono hown
    obtain ⟨ns', hns', hst₁, -⟩ := Matrix.run_resolveTenant_ok hn
    cases (hns t (by simp)).symm.trans hns'
    have hs₁ := hst₁.calm hs
    refine (hst₁.mono hown).trans ?_
    rcases passes_bind.1 hx with hx | ⟨b, s₂, hb, hx⟩
    · exact (stage_of_passes_sync st hs₁ hx).mono hown
    have hst₂ := stage_of_run_sync st hs₁ hb
    exact (hst₂.mono hown).trans ((ih (hst₂.calm hs₁) (fun u hu => hns u (by simp [hu])) hx).mono
      hlater)

theorem resumes_tenants (hs : s.Calm) (hnames : (ts.map (·.name)).Nodup)
    (hts : ∀ t ∈ ts, t.metadata.ns = some ns ∧ (s.find? .tenant (.inSpace ns t.name)).isSome) :
    (tenants st ns ts).Resumes s := by
  induction ts generalizing s with
  | nil => exact resumes_of_still fun x hx => hx
  | cons t ts ih =>
    obtain ⟨hfresh, hnames⟩ := List.nodup_cons.1 hnames
    obtain ⟨hns, halive⟩ := hts t (by simp)
    have hspace : ∀ u ∈ ts, u.metadata.ns = some ns := fun u hu => (hts u (by simp [hu])).1
    refine resumes_seq (Matrix.resumes_resolveTenant hs t) (fun n s₁ x hn hx => ?_)
      fun n s₁ hn => ?_
    all_goals
      obtain ⟨ns', hns', hst₁, hc₁⟩ := Matrix.run_resolveTenant_ok hn
      cases hns.symm.trans hns'
      have hs₁ := hst₁.calm hs
      have halive₁ : (s₁.find? .tenant (.inSpace ns t.name)).isSome := by rwa [hst₁.find?_eq]
    · -- A tenant that is complete stays so while it is synced and the others are looked after.
      refine Matrix.rests_resolveTenant (hx.calm hs₁) hns ?_
      rcases passes_bind.1 hx with hx | ⟨b, s₂, hb, hx⟩
      · exact hc₁.stage (stage_of_passes_sync st hs₁ hx)
      · have hst₂ := stage_of_run_sync st hs₁ hb
        exact (hc₁.stage hst₂).stage (stage_of_passes_tenants st (hst₂.calm hs₁) hspace hx)
    · refine resumes_seq (Teardown.resumes_syncTenant_alive st hs₁ halive₁)
        (fun b s₂ x hb hx => ?_) fun b s₂ hb => ?_
      all_goals
        have hst₂ := stage_of_run_sync st hs₁ hb
        have hs₂ := hst₂.calm hs₁
        have hst := hst₁.trans hst₂
      · have hst₃ := stage_of_passes_tenants st hs₂ hspace hx
        have halive₃ : (x.find? .tenant (.inSpace ns t.name)).isSome := by
          rwa [hst₃.find?_eq, hst₂.find?_eq]
        cases (Teardown.run_syncTenant_alive st ns t.name hs₁ halive₁).symm.trans hb
        have hset := hst₃.settled hfresh (Teardown.settled_synced st ns t.name s₁)
        have hsync := Teardown.run_syncTenant_alive st ns t.name (hx.calm hs₂) halive₃
        rw [Teardown.synced_of_settled st ns t.name hset] at hsync
        exact ⟨true, hsync⟩
      · refine ih hs₂ hnames fun u hu => ?_
        rw [hst.find?_eq]
        exact hts u (by simp [hu])

/-- What the reconcile of a microservice does with one that is there. -/
def spread (st : Settings) (ns : String) (m : Microservice) : Program Outcome := do
  .ofExcept m.content.validate
  tenants st ns (← Program.list .tenant (some ns) ∅)
  return .converged

theorem microservice_eq (ns : String) (key : Key) :
    microservice st ns key = Program.get .microservice key >>= fun
      | none => do
        Teardown.microservice st ns key.name
        return .tornDown
      | some m => spread st ns m := rfl

theorem passes_spread (hs : s.Calm) {m : Microservice} (hx : (spread st ns m).Passes s x) :
    (tenants st ns (s.select .tenant (some ns) ∅)).Passes s x := by
  rcases passes_read_bind hs (every_ofExcept _) hx with rfl | ⟨_, -, hx⟩
  · exact passes_start ..
  rcases passes_read_bind hs (reads_list ..) hx with rfl | ⟨ts, hts, hx⟩
  · exact passes_start ..
  obtain ⟨rfl, -⟩ := run_list_ok hts
  exact passes_bind_done (fun _ => ⟨_, rfl⟩) hx

theorem stage_of_passes_spread (hs : s.Calm) {m : Microservice}
    (hx : (spread st ns m).Passes s x) : Matrix.Stage ns (fun _ => True) s x :=
  (stage_of_passes_tenants st hs (fun _ ht => (alive_of_mem_select hs.filed ht).1)
    (passes_spread st hs hx)).mono fun _ _ => trivial

theorem find?_of_passes_spread (hs : s.Calm) {m : Microservice}
    (hx : (spread st ns m).Passes s x) (key : Key) :
    x.find? .microservice key = s.find? .microservice key :=
  (stage_of_passes_spread st hs hx).find?_eq

theorem find?_of_passes_microservice_live (hs : s.Calm) {key : Key} {m : Microservice}
    (hm : s.find? .microservice key = some m) (hx : (microservice st ns key).Passes s x) :
    x.find? .microservice key = some m := by
  rw [microservice_eq] at hx
  exact find?_of_passes_get_bind hs hm (fun x hx => by rw [find?_of_passes_spread st hs hx, hm]) hx

theorem resumes_microservice_live (hs : s.Calm) {key : Key} {m : Microservice}
    (hm : s.find? .microservice key = some m) : (microservice st ns key).Resumes s := by
  rw [microservice_eq]
  refine resumes_get_bind hs hm (fun x hx => ?_) ?_
  · rw [find?_of_passes_spread st hs hx, hm]
  refine resumes_read_bind hs (every_ofExcept _) (fun _ x hv _ _ => ?_) fun _ hv => ?_
  · exact rests_ofExcept (run_ofExcept_ok hv).1 x
  refine resumes_read_bind hs (reads_list ..) (fun ts x hts _ hx => ?_) fun ts hts => ?_
  all_goals obtain ⟨rfl, -⟩ := run_list_ok hts
  · -- The tenants of the namespace are the same wherever the loop is left.
    have hst := stage_of_passes_tenants st hs
      (fun _ ht => (alive_of_mem_select hs.filed ht).1) (passes_bind_done (fun _ => ⟨_, rfl⟩) hx)
    have hsel : x.select .tenant (some ns) ∅ = s.select .tenant (some ns) ∅ :=
      select_congr fun key t _ => by rw [hst.find?_eq]
    rw [← hsel]
    exact (hx.calm hs).run_list ..
  · exact resumes_bind_pure (resumes_tenants st hs (hs.filed.nodup_names ..)
      fun _ ht => alive_of_mem_select hs.filed ht) _

theorem find?_of_passes_resolveTenant (hs : s.Calm) {t : Tenant}
    (hx : (Matrix.resolveTenant t).Passes s x) (key : Key) :
    x.find? .tenant key = s.find? .tenant key := by
  cases hns : t.metadata.ns with
  | none =>
    unfold Matrix.resolveTenant at hx
    rw [hns] at hx
    cases hx
    rfl
  | some ns => exact (Matrix.stage_of_passes hs hns hx).find?_eq

theorem find?_of_passes_tenant_live (hs : s.Calm) {key : Key} {t : Tenant}
    (ht : s.find? .tenant key = some t) (hx : (Reconcile.tenant st ns key).Passes s x) :
    x.find? .tenant key = some t := by
  refine find?_of_passes_get_bind hs ht (fun x hx => ?_) hx
  rw [find?_of_passes_resolveTenant hs (passes_bind_done (fun _ => ⟨_, rfl⟩) hx), ht]

theorem resumes_tenant_live (hs : s.Calm) {key : Key} {t : Tenant}
    (ht : s.find? .tenant key = some t) : (Reconcile.tenant st ns key).Resumes s := by
  refine resumes_get_bind hs ht (fun x hx => ?_)
    (resumes_bind_pure (Matrix.resumes_resolveTenant hs t) _)
  rw [find?_of_passes_resolveTenant hs (passes_bind_done (fun _ => ⟨_, rfl⟩) hx), ht]

end Reconcile
end TenantOperator
