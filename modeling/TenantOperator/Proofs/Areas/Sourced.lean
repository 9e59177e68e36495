import TenantOperator.Proofs.Interleaving.Cleaning
import TenantOperator.Proofs.Interruption.Teardowns
import TenantOperator.Proofs.Removal.Removed

/-! Where the contents of bundles and routing tables come from. Wherever a reconcile is left, what a
tenant's bundle and table hold was there before it began, or it stems from the areas that the tenant
uses now. -/
namespace TenantOperator
open Program Store

namespace Routing
variable {ns tenant : String}

theorem exists_of_mem_paths {st : Settings} {s : Store} (h : Current st s ns tenant) {path : String}
    (hpath : path ∈ paths s ns tenant) :
    ∃ area ∈ s.areas ns tenant, Naming.routingPath ns tenant area = path := by
  rw [paths_of_current h, ← SortedMap.contains_iff_mem_keys] at hpath
  obtain ⟨p, hp, hpath⟩ := contains_rules.1 hpath
  exact ⟨p.area, List.mem_map_of_mem hp, hpath⟩

end Routing

namespace Store
variable {st : Settings} {s y x : Store} {ns tenant : String}

/-- The tenant's bundle and its table are as they were or gone. -/
def Thinned (ns tenant : String) (s x : Store) : Prop :=
  ∀ k key, Bundle.Shared ns tenant k key → x.find? k key = s.find? k key ∨ x.find? k key = none

/-- From `s` to `x` a table was left alone, deleted or computed from the areas in use, and a bundle
has got no entries but for areas in use. -/
structure Sourced (st : Settings) (ns tenant : String) (s x : Store) : Prop where
  table : x.find? .ingress (Routing.tableKey ns tenant) =
      s.find? .ingress (Routing.tableKey ns tenant) ∨
    x.find? .ingress (Routing.tableKey ns tenant) = none ∨ Routing.Current st x ns tenant
  entries : ∀ area, (Bundle.entries x ns tenant).contains area →
    (Bundle.entries s ns tenant).contains area ∨ area ∈ x.areas ns tenant

theorem areas_congr (h : x.resolved ns tenant = s.resolved ns tenant) :
    x.areas ns tenant = s.areas ns tenant := by
  rw [areas, h, areas]

theorem thinned_of_agreeOff {P : Kind → Key → Prop} (h : AgreeOff P s x)
    (hP : ∀ k key, P k key → ¬Bundle.Shared ns tenant k key) : Thinned ns tenant s x :=
  fun k key hk => Or.inl (h k key fun hp => hP k key hp hk)

theorem Thinned.contains (h : Thinned ns tenant s x) {area : String}
    (hc : (Bundle.entries x ns tenant).contains area) :
    (Bundle.entries s ns tenant).contains area := by
  rcases h _ _ (Or.inl ⟨rfl, rfl⟩) with hsame | hnone
  · rwa [Bundle.entries_congr hsame] at hc
  · have hsome := Bundle.isSome_of_contains hc
    rw [hnone] at hsome
    cases hsome

theorem thinned_of_bare (h : x.Bare ns tenant) : Thinned ns tenant s x := by
  rintro k key (⟨rfl, rfl⟩ | ⟨rfl, rfl⟩)
  · exact Or.inr h.1
  · exact Or.inr h.2

namespace Sourced

theorem of_thinned (h : Thinned ns tenant s x) : Sourced st ns tenant s x where
  table := (h _ _ (Or.inr ⟨rfl, rfl⟩)).imp_right Or.inl
  entries _ hc := Or.inl (h.contains hc)

theorem of_settled (h : Teardown.Settled st x ns tenant) : Sourced st ns tenant s x where
  table := Or.inr (Or.inr h.2)
  entries _ hc := Or.inr (Bundle.mem_areas_of_synced h.1 hc)

/-- A step before that only thins the two may be left out. -/
theorem after (h : Sourced st ns tenant y x) (hy : Thinned ns tenant s y) :
    Sourced st ns tenant s x where
  table := by
    rcases h.table with hsame | hnone
    · rcases hy _ _ (Or.inr ⟨rfl, rfl⟩) with hy | hy
      · exact Or.inl (hsame.trans hy)
      · exact Or.inr (Or.inl (hsame.trans hy))
    · exact Or.inr hnone
  entries area hc := (h.entries area hc).imp_left hy.contains

theorem thinned (h : Sourced st ns tenant s y) (hx : Thinned ns tenant y x)
    (hr : x.resolved ns tenant = y.resolved ns tenant) : Sourced st ns tenant s x where
  table := by
    rcases hx _ _ (Or.inr ⟨rfl, rfl⟩) with hsame | hnone
    · rw [hsame]
      exact h.table.imp_right (Or.imp_right fun hc => hc.congr st ns tenant hr hsame)
    · exact Or.inr (Or.inl hnone)
  entries area hc := by
    rw [areas_congr hr]
    exact h.entries area (hx.contains hc)

end Sourced
end Store

namespace Teardown
variable (st : Settings) {s x : Store} {ns ns' name tenant u : String}

theorem sourced_merged (s : Store) : Sourced st ns tenant s (merged s ns tenant) where
  table := Or.inl (s.agreeOff_upserted _ _ _ _ (by simp))
  entries area hc := by
    have hareas : (merged s ns tenant).areas ns tenant = s.areas ns tenant :=
      areas_congr ((s.agreeOff_upserted _ _).resolved_eq (by simp) (by simp))
    rw [hareas]
    exact Or.inr (Bundle.contains_entries_mergeInto.1 hc).2

/-- Calls that read, or delete the bundle or the table of a tenant. -/
abbrev Erases (ns tenant : String) : Call → Prop :=
  Call.Discards (fun _ _ => False) (Bundle.Shared ns tenant)

theorem sourced_of_erases {α : Type} {p : Program α} {y : Store} (h : Sourced st ns' u s y)
    (hp : p.Every (Erases ns tenant)) (hy : y.Filed) (hx : p.Passes y x) :
    Sourced st ns' u s x := by
  have hdrops : Drops (fun _ _ => False) (Bundle.Shared ns tenant) y x :=
    (Every.passes (I := Drops _ _ y) hp (fun s' c hd hc => (rely_drops _ _).trans hd (hc.drops s'))
      hy ((rely_drops _ _).refl y) hx).1
  have hkept {k : Kind} {key : Key} (hk : ¬Bundle.Shared ns tenant k key) :
      x.find? k key = y.find? k key :=
    Classical.not_not.1 fun hne => hk ((hdrops k key hne).resolve_left id).1
  refine h.thinned (fun k key _ => ?_) (resolved_congr (fun id => hkept (by simp [Bundle.Shared]))
    fun key p _ => by rw [hkept (by simp [Bundle.Shared])])
  by_cases hsame : x.find? k key = y.find? k key
  · exact Or.inl hsame
  · exact Or.inr ((hdrops k key hsame).resolve_left id).2

theorem erases_both {α : Type} (ns tenant : String) (a : α) :
    (Bundle.deleteTenant ns tenant >>= fun _ => Routing.delete ns tenant >>= fun _ =>
      (pure a : Program α)).Every (Erases ns tenant) := by
  have hdelete {k : Kind} {key : Key} (h : Bundle.Shared ns tenant k key) :
      Erases ns tenant (.delete k key) := Or.inr ⟨k, key, rfl, h⟩
  refine every_bind (every_bind (every_perform (hdelete (Or.inl ⟨rfl, rfl⟩))) fun b => ?_) fun _ =>
    every_bind (Routing.every_delete ns tenant (hdelete (Or.inr ⟨rfl, rfl⟩))) fun _ => trivial
  cases b <;> trivial

theorem erases_discard (ns tenant : String) :
    (discardIfTenantGone ns tenant).Every (Erases ns tenant) := by
  refine every_bind ((reads_get ..).mono fun _ => Call.discards_read) fun t => ?_
  cases t with
  | some t => trivial
  | none => exact erases_both ns tenant true

theorem sourced_of_passes_sync (hs : s.Calm) (hx : (syncTenant st ns tenant).Passes s x) :
    Sourced st ns' u s x := by
  by_cases hslot : ns' = ns ∧ u = tenant
  · obtain ⟨rfl, rfl⟩ := hslot
    rcases passes_syncTenant st hs hx with rfl | rfl | hx
    · exact .of_thinned fun _ _ _ => Or.inl rfl
    · exact sourced_merged st s
    · exact sourced_of_erases st (.of_settled (settled_synced st ns' u s)) (erases_discard ns' u)
        (calm_synced st ns' u hs).filed hx
  · refine .of_thinned (thinned_of_agreeOff
      ((within_syncTenant st ns tenant).passes hs.filed hx) fun k key hk hshared => ?_)
    exact hslot (Bundle.shared_inj hshared hk)

theorem sourced_of_passes_clearPairing (hs : s.Calm)
    (hx : (clearPairing st ns name tenant).Passes s x) : Sourced st ns' u s x := by
  obtain ⟨b, hb⟩ := run_syncTenant_afterSync st ns tenant hs
  have hend := passes_end (syncTenant st ns tenant) s
  rw [hb] at hend
  have hsync : Sourced st ns' u s (afterSync st s ns tenant) := sourced_of_passes_sync st hs hend
  -- Deleting children afterwards is no concern of any bundle or table.
  have hrest {x : Store} (h : AgreeOff (Children ns name) (afterSync st s ns tenant) x) :
      Sourced st ns' u s x := by
    refine hsync.thinned (thinned_of_agreeOff h ?_)
      (h.resolved_eq (by simp [Children]) (by simp [Children]))
    rintro k key ⟨rfl | rfl, -⟩ <;> simp [Bundle.Shared]
  rcases passes_clearPairing st hs hx with hx | rfl | rfl
  · exact sourced_of_passes_sync st hs hx
  · exact hrest ((agreeOff_remove _ _ _).mono fun _ _ h => ⟨Or.inl h.1, h.2⟩)
  · exact hrest (agreeOff_children_cleared st ns name tenant s)

theorem thinned_remove_pairing (key : Key) : Thinned ns' u s (s.remove .pairing key) :=
  thinned_of_agreeOff (s.agreeOff_remove _ _) (by simp [Bundle.Shared])

theorem thinned_sweep (s : Store) {p : Pairing} (h : ¬(ns' = ns ∧ u = p.content.tenantId)) :
    Thinned ns' u s (sweep st ns s p) := by
  intro k key hk
  left
  rw [sweep, agreeOff_cleared st ns p.name p.content.tenantId _ k key ?_, find?_remove_of_ne]
  · rcases hk with ⟨rfl, -⟩ | ⟨rfl, -⟩ <;> simp
  · rintro (hshared | ⟨hchild, -⟩)
    · exact h (Bundle.shared_inj hk hshared)
    · rcases hk with ⟨rfl, -⟩ | ⟨rfl, -⟩ <;> simp at hchild

theorem calm_sweep (hs : s.Calm) (p : Pairing) : (sweep st ns s p).Calm :=
  calm_cleared st ns _ _ (hs.remove _ _)

theorem passes_clearAll_cons {p : Pairing} {ps : List Pairing} (hs : s.Calm)
    (hx : (clearAll st ns (p :: ps)).Passes s x) :
    Sourced st ns' u s x ∨ (clearAll st ns ps).Passes (sweep st ns s p) x := by
  have hs₁ := hs.remove .pairing (.inSpace ns p.name)
  have hthin : Thinned ns' u s (s.remove .pairing (.inSpace ns p.name)) := thinned_remove_pairing _
  rcases passes_bind.1 hx with hx | ⟨b, s₁, hb, hx⟩
  · left
    rcases passes_delete hs hx with rfl | rfl
    · exact .of_thinned fun _ _ _ => Or.inl rfl
    · exact .of_thinned hthin
  cases (hs.run_delete ..).symm.trans hb
  rcases passes_bind.1 hx with hx | ⟨_, s₂, hr, hx⟩
  · exact Or.inl ((sourced_of_passes_clearPairing st hs₁ hx).after hthin)
  · cases (run_clearPairing st ns p.name p.content.tenantId hs₁).symm.trans hr
    exact Or.inr hx

theorem sourced_of_passes_clearAll_gone {ps : List Pairing} (hs : s.Calm)
    (hps : ∀ p ∈ ps, p.content.tenantId = tenant)
    (hgone : s.find? .tenant (.inSpace ns tenant) = none)
    (hx : (clearAll st ns ps).Passes s x) : Sourced st ns' u s x := by
  induction ps generalizing s with
  | nil =>
    cases hx
    exact .of_thinned fun _ _ _ => Or.inl rfl
  | cons p ps ih =>
    obtain rfl := hps p List.mem_cons_self
    rcases passes_clearAll_cons st hs hx with h | hx
    · exact h
    have hgone₁ : (s.remove .pairing (.inSpace ns p.name)).find? .tenant
        (.inSpace ns p.content.tenantId) = none := by
      rwa [find?_remove_of_ne _ (by simp)]
    have hgone₂ : (sweep st ns s p).find? .tenant (.inSpace ns p.content.tenantId) = none := by
      rwa [sweep, agreeOff_cleared st ns p.name p.content.tenantId _ _ _
        (by simp [Bundle.Shared, Children])]
    refine (ih (calm_sweep st hs p) (fun q hq => hps q (List.mem_cons_of_mem p hq)) hgone₂
      hx).after ?_
    by_cases hslot : ns' = ns ∧ u = p.content.tenantId
    · obtain ⟨rfl, rfl⟩ := hslot
      exact thinned_of_bare (bare_cleared st hgone₁)
    · exact thinned_sweep st s hslot

theorem Listed.resolved_of_passes {ps : List Pairing} (h : Listed ns s ps) (hs : s.Calm)
    (hne : ∀ q ∈ ps, tenant ≠ q.content.tenantId) (hx : (clearAll st ns ps).Passes s x) :
    x.resolved ns tenant = s.resolved ns tenant := by
  have hoff := (within_clearAll st ps).passes hs.filed hx
  obtain ⟨l, r, rfl, hleft⟩ := passes_clearAll st hs hx
  have hswept : (sweepAll st ns l s).resolved ns tenant = s.resolved ns tenant :=
    h.left.resolved_sweepAll hs fun q hq => hne q (List.mem_append_left r hq)
  rw [← hswept]
  refine resolved_congr (fun id => ?_) fun key p _ => by rw [hleft.find?_pairing st hs]
  rw [hoff _ _ (by simp [Swept, Bundle.Shared, Children]),
    (sweepAll_spec st ns l hs).2.1 _ _ (by simp [Swept, Bundle.Shared, Children])]

theorem sourced_of_passes_clearAll {ps : List Pairing} (h : Listed ns s ps) (hs : s.Calm)
    (hx : (clearAll st ns ps).Passes s x) : Sourced st ns' u s x := by
  induction ps generalizing s with
  | nil =>
    cases hx
    exact .of_thinned fun _ _ _ => Or.inl rfl
  | cons p ps ih =>
    rcases passes_clearAll_cons st hs hx with hsrc | hx
    · exact hsrc
    have hs₁ : (sweep st ns s p).Calm := calm_sweep st hs p
    by_cases hslot : ns' = ns ∧ u = p.content.tenantId
    · obtain ⟨rfl, rfl⟩ := hslot
      have hapart := (List.pairwise_cons.1 h.apart).1
      have hfinished : Finished st ns' (sweep st ns' s p) p := finished_sweep s p
      cases halive : (sweep st ns' s p).find? .tenant (.inSpace ns' p.content.tenantId) with
      | none => exact (ih h.tail hs₁ hx).after (thinned_of_bare (hfinished.gone halive))
      | some t =>
        -- The tenant was synced, and no pairing after this one is its own.
        refine (Sourced.of_settled (hfinished.alive (by rw [halive]; rfl))).thinned
          (fun k key hk => Or.inl ?_)
          (h.tail.resolved_of_passes st hs₁ (fun q hq => (hapart q hq).2) hx)
        exact (within_clearAll st ps).passes hs₁.filed hx k key
          (not_swept_of_apart hapart (Or.inl hk))
    · exact (ih h.tail hs₁ hx).after (thinned_sweep st s hslot)

theorem sourced_of_passes_microservice (hs : s.Calm) (hshape : s.Shaped)
    (hx : (microservice st ns name).Passes s x) : Sourced st ns' u s x := by
  rcases passes_read_bind hs (reads_list ..) hx with rfl | ⟨ps, hps, hx⟩
  · exact .of_thinned fun _ _ _ => Or.inl rfl
  · cases (hs.run_list ..).symm.trans hps
    exact sourced_of_passes_clearAll st (.of_select hs.filed hshape ns name) hs hx

theorem sourced_of_passes_tenant (hs : s.Calm) (hshape : s.Shaped)
    (hgone : s.find? .tenant (.inSpace ns tenant) = none)
    (hx : (Teardown.tenant st ns tenant).Passes s x) : Sourced st ns' u s x := by
  have hpairings {x : Store} (hx : (pairings st ns (Naming.tenantSelector tenant)).Passes s x) :
      Sourced st ns' u s x := by
    rcases passes_read_bind hs (reads_list ..) hx with rfl | ⟨ps, hps, hx⟩
    · exact .of_thinned fun _ _ _ => Or.inl rfl
    · cases (hs.run_list ..).symm.trans hps
      refine sourced_of_passes_clearAll_gone st hs (fun p hp => ?_) hgone hx
      obtain ⟨-, hf, hl⟩ := hs.filed.of_mem_space hp
      exact (hshape hf).satisfies_iff.1 hl
  rcases passes_bind.1 hx with hx | ⟨_, s₁, hr, hx⟩
  · exact hpairings hx
  have hend := passes_end (pairings st ns (Naming.tenantSelector tenant)) s
  rw [hr] at hend
  exact sourced_of_erases st (hpairings hend) (erases_both ns tenant ()) (hend.calm hs).filed hx

end Teardown
namespace Reconcile
variable (st : Settings) {s x : Store} {ns ns' tenant u area : String} {c : Configuration}

theorem thinned_of_passes_resolveTenant (hs : s.Filed) {t : Tenant}
    (hx : (Matrix.resolveTenant t).Passes s x) : Thinned ns' u s x :=
  thinned_of_agreeOff ((Cleaning.within_resolveTenant t).passes hs hx)
    (by rintro k key rfl; simp [Bundle.Shared])

/-- Wherever the loop over the tenants is left, those before have stayed in line. -/
theorem sourced_of_passes_tenants {ts : List Tenant} (hs : s.Calm)
    (hnames : (ts.map (·.name)).Nodup)
    (hts : ∀ t ∈ ts, t.metadata.ns = some ns ∧ (s.find? .tenant (.inSpace ns t.name)).isSome)
    (hx : (tenants st ns ts).Passes s x) : Sourced st ns' u s x := by
  induction ts generalizing s with
  | nil =>
    cases hx
    exact .of_thinned fun _ _ _ => Or.inl rfl
  | cons t ts ih =>
    obtain ⟨hfresh, hnames⟩ := List.nodup_cons.1 hnames
    obtain ⟨hns, halive⟩ := hts t List.mem_cons_self
    rcases passes_bind.1 hx with hx | ⟨n, s₁, hn, hx⟩
    · exact .of_thinned (thinned_of_passes_resolveTenant hs.filed hx)
    have hend := passes_end (Matrix.resolveTenant t) s
    rw [hn] at hend
    have hthin : Thinned ns' u s s₁ := thinned_of_passes_resolveTenant hs.filed hend
    obtain ⟨ns'', hns'', hst₁, -⟩ := Matrix.run_resolveTenant_ok hn
    cases hns.symm.trans hns''
    have hs₁ := hst₁.calm hs
    rcases passes_bind.1 hx with hx | ⟨b, s₂, hb, hx⟩
    · exact (Teardown.sourced_of_passes_sync st hs₁ hx).after hthin
    rw [← hst₁.find?_eq] at halive
    cases (Teardown.run_syncTenant_alive st ns t.name hs₁ halive).symm.trans hb
    have hst₂ := Matrix.Stage.synced st s₁ ns t.name
    have hs₂ := hst₂.calm hs₁
    have hts₂ : ∀ v ∈ ts, v.metadata.ns = some ns ∧
        ((Teardown.synced st s₁ ns t.name).find? .tenant (.inSpace ns v.name)).isSome := by
      intro v hv
      rw [hst₂.find?_eq, hst₁.find?_eq]
      exact hts v (List.mem_cons_of_mem t hv)
    by_cases hslot : ns' = ns ∧ u = t.name
    · -- The tenants after this one have other names.
      obtain ⟨rfl, rfl⟩ := hslot
      have hrest := stage_of_passes_tenants st hs₂ (fun v hv => (hts₂ v hv).1) hx
      refine (Sourced.of_settled (Teardown.settled_synced st ns' t.name s₁)).thinned
        (thinned_of_agreeOff hrest.others ?_) (hrest.resolved_eq hfresh)
      rintro k key (rfl | ⟨v, hv, hk⟩) hshared
      · simp [Bundle.Shared] at hshared
      · rw [← (Bundle.shared_inj hshared hk).2] at hv
        exact hfresh hv
    · refine ((ih hs₂ hnames hts₂ hx).after ?_).after hthin
      exact thinned_of_agreeOff (Teardown.agreeOff_synced st ns t.name s₁) fun k key hk hshared =>
        hslot (Bundle.shared_inj hshared hk)

theorem sourced_entered (h : area ∈ s.areas ns tenant) :
    Sourced st ns tenant s (entered s ns tenant area c) where
  table := Or.inl (s.agreeOff_upserted _ _ _ _ (by simp))
  entries a hc := by
    have hareas : (entered s ns tenant area c).areas ns tenant = s.areas ns tenant :=
      areas_congr ((s.agreeOff_upserted _ _).resolved_eq (by simp) (by simp))
    rw [hareas]
    rcases Bundle.contains_entries_setEntry.1 hc with rfl | hc
    · exact Or.inr h
    · exact Or.inl hc

theorem sourced_published (h : area ∈ s.areas ns tenant) :
    Sourced st ns tenant s (published st s ns tenant area c) where
  table := Or.inr (Or.inr (Routing.current_rebuilt ..))
  entries a hc := by
    have hoff := Routing.agreeOff_rebuilt st ns tenant (entered s ns tenant area c)
    have hareas : (published st s ns tenant area c).areas ns tenant =
        (entered s ns tenant area c).areas ns tenant :=
      areas_congr (hoff.resolved_eq (by simp) (by simp))
    rw [published, Bundle.entries_congr (hoff _ _ (by simp))] at hc
    rw [hareas]
    exact (sourced_entered st h).entries a hc

theorem sourced_of_passes_live (hs : s.Calm) (hshape : s.Shaped) {key : Key} {p : Pairing}
    (hp : s.find? .pairing key = some p) (hns : key.ns = some ns)
    (hx : (live st ns p).Passes s x) : Sourced st ns' u s x := by
  by_cases hslot : ns' = ns ∧ u = p.content.tenantId
  · obtain ⟨rfl, rfl⟩ := hslot
    rw [live_eq] at hx
    rcases passes_read_bind hs (every_ofExcept _) hx with rfl | ⟨_, -, hx⟩
    · exact .of_thinned fun _ _ _ => Or.inl rfl
    rcases passes_read_bind hs (reads_parent ..) hx with rfl | ⟨t, ht, hx⟩
    · exact .of_thinned fun _ _ _ => Or.inl rfl
    rcases passes_bind.1 hx with hx | ⟨o, s₁, ho, hx⟩
    · refine .of_thinned (thinned_of_agreeOff
        ((Workload.within_synthesize p).passes hs.filed hx) ?_)
      rintro k key (rfl | rfl) <;> simp [Bundle.Shared]
    obtain ⟨-, hoff, hc⟩ := Workload.run_synthesize_ok ho
    have hs₁ := hc hs
    have hthin : Thinned ns' p.content.tenantId s s₁ :=
      thinned_of_agreeOff hoff (by rintro k key (rfl | rfl) <;> simp [Bundle.Shared])
    rcases passes_read_bind hs₁ (reads_parent ..) hx with rfl | ⟨m, hm, hx⟩
    · exact .of_thinned hthin
    have hpub := passes_bind_done (by rintro (_ | _) <;> exact ⟨_, rfl⟩) hx
    have halive : (s₁.find? .tenant (.inSpace ns' p.content.tenantId)).isSome := by
      rw [hoff _ _ (by simp), (Workload.run_parent_ok ht).1]
      rfl
    -- The pairing is among those of its tenant.
    have harea : m.content.functionalArea ∈ s₁.areas ns' p.content.tenantId := by
      have hp₁ : s₁.find? .pairing key = some p := by rw [hoff _ _ (by simp), hp]
      have hl := (hshape hp).satisfies_iff.2 rfl
      exact mem_areas.2 ⟨p, mem_select_of_find? hp₁ hns hl, m, (Workload.run_parent_ok hm).1, rfl⟩
    rcases passes_publish_alive st hs₁ halive hpub with rfl | rfl | rfl
    · exact .of_thinned hthin
    · exact (sourced_entered st harea).after hthin
    · exact (sourced_published st harea).after hthin
  · refine .of_thinned (thinned_of_agreeOff ((within_live st ns p).passes hs.filed hx) ?_)
    rintro k key ((rfl | rfl) | hk) hshared
    · simp [Bundle.Shared] at hshared
    · simp [Bundle.Shared] at hshared
    · exact hslot (Bundle.shared_inj hshared hk)

theorem thinned_of_passes_inst (hs : s.Filed) {key : Key}
    (hx : (reconcile st ⟨.inst, key⟩).Passes s x) : Thinned ns' u s x := by
  have htouches := touches_of_spans st hs (Passes.spans hx)
  refine fun k key' hk => Or.inl (Classical.not_not.1 fun hne => ?_)
  rcases htouches.scope k key' hne with ⟨rfl, -⟩ | ⟨rfl, rfl⟩
  · simp [Bundle.Shared] at hk
  · exact hk.not_madeOnce (by simp [Kind.MadeOnce])

/-- Wherever a reconcile is left, what a tenant's bundle and table hold has its source. -/
theorem sourced_of_passes_reconcile (hs : s.Calm) (hshape : s.Shaped) {r : ReconcileRequest}
    (hx : (reconcile st r).Passes s x) (ns' u : String) : Sourced st ns' u s x := by
  have hsame : Sourced st ns' u s s := .of_thinned fun _ _ _ => Or.inl rfl
  have hdone (o : Outcome) (_ : Unit) : ∃ r, (pure o : Program Outcome) = .done r := ⟨_, rfl⟩
  obtain ⟨kind, name, _ | ns⟩ := r <;> cases kind
  · exact .of_thinned (thinned_of_passes_inst st hs.filed hx)
  · cases hx; exact hsame
  · cases hx; exact hsame
  · cases hx; exact hsame
  · exact .of_thinned (thinned_of_passes_inst st hs.filed hx)
  · rcases passes_read_bind hs (reads_get ..) hx with rfl | ⟨t, ht, hx⟩
    · exact hsame
    cases t with
    | some t =>
      exact .of_thinned (thinned_of_passes_resolveTenant hs.filed
        (passes_bind_done (fun _ => ⟨_, rfl⟩) hx))
    | none =>
      exact Teardown.sourced_of_passes_tenant st hs hshape (run_get_ok ht).1
        (passes_bind_done (hdone _) hx)
  · rcases passes_read_bind hs (reads_get ..) hx with rfl | ⟨m, -, hx⟩
    · exact hsame
    cases m with
    | some m =>
      exact sourced_of_passes_tenants st hs (hs.filed.nodup_names ..)
        (fun _ ht => alive_of_mem_select hs.filed ht) (passes_spread st hs hx)
    | none =>
      exact Teardown.sourced_of_passes_microservice st hs hshape (passes_bind_done (hdone _) hx)
  · cases hp : s.find? .pairing (.inSpace ns name) with
    | none =>
      rcases passes_pairing_gone st hs hp hx with rfl | ⟨t, -, hx⟩
      · exact hsame
      · exact Teardown.sourced_of_passes_clearPairing st hs hx
    | some p =>
      rcases passes_read_bind hs (reads_get ..) hx with rfl | ⟨q, hq, hx⟩
      · exact hsame
      · cases hp.symm.trans (run_get_ok hq).1
        exact sourced_of_passes_live st hs hshape hp rfl hx

end Reconcile
end TenantOperator
