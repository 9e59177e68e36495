import TenantOperator.Proofs.Frame.Footprint
import TenantOperator.Proofs.Interruption.Akin

/-! Teardowns of tenants and microservices that are left on the way and run again. A pairing is
deleted before what it leaves is cleared, and the next run takes the list of the pairings that are
still there, so it never comes back to a pairing whose clearing was left. -/
namespace TenantOperator
open Program Store

namespace Teardown
variable (st : Settings) {s x : Store} {ns : String}

theorem find?_of_passes_clears {α : Type} {p : Program α} (hp : p.Every (Reconcile.Clears ns))
    (hs : s.Filed) (hx : p.Passes s x) {k : Kind} (hc : k ≠ .configMap) (hi : k ≠ .ingress)
    {key : Key} {r : Resource k} (h : x.find? k key = some r) : s.find? k key = some r := by
  have hdrops : Drops (Reconcile.Common ns) (Reconcile.Own ns) s x :=
    (Every.passes (I := Drops _ _ s) hp (fun s' c hd hc => (rely_drops _ _).trans hd (hc.drops s'))
      hs ((rely_drops _ _).refl s) hx).1
  by_cases heq : x.find? k key = s.find? k key
  · rw [← heq, h]
  · rcases hdrops k key heq with ⟨t, ht⟩ | ⟨-, hnone⟩
    · rcases ht with ⟨rfl, -⟩ | ⟨rfl, -⟩
      · exact absurd rfl hc
      · exact absurd rfl hi
    · rw [hnone] at h
      cases h

def sweep (ns : String) (s : Store) (p : Pairing) : Store :=
  cleared st ns p.name p.content.tenantId (s.remove .pairing (.inSpace ns p.name))

def sweepAll (ns : String) (ps : List Pairing) (s : Store) : Store := ps.foldl (sweep st ns) s

theorem sweepAll_append (ns : String) (l r : List Pairing) (s : Store) :
    sweepAll st ns (l ++ r) s = sweepAll st ns r (sweepAll st ns l s) :=
  List.foldl_append

theorem run_clearAll_eq (ps : List Pairing) (hs : s.Calm) :
    (clearAll st ns ps).run s = (.ok (), sweepAll st ns ps s) := by
  induction ps generalizing s with
  | nil => rfl
  | cons p ps ih =>
    have hs₁ := hs.remove .pairing (.inSpace ns p.name)
    have hrest := ih (calm_cleared st ns p.name p.content.tenantId hs₁)
    rw [clearAll, run_bind_of_ok (hs.run_delete ..)]
    exact (run_bind_of_ok (run_clearPairing st ns p.name _ hs₁)).trans hrest

theorem run_pairings_eq (hs : s.Calm) (selector : Labels) : (pairings st ns selector).run s =
    (.ok (), sweepAll st ns (s.select .pairing (some ns) selector) s) := by
  rw [pairings, run_bind_of_ok (hs.run_list ..)]
  exact run_clearAll_eq st _ hs

theorem sweepAll_spec (ns : String) (ps : List Pairing) (hs : s.Calm) :
    (sweepAll st ns ps s).Calm ∧ AgreeOff (Swept ns ps) s (sweepAll st ns ps s) ∧
      ∀ p ∈ ps, ∀ k, k = .pairing ∨ k = .deployment ∨ k = .service →
        (sweepAll st ns ps s).find? k (.inSpace ns p.name) = none := by
  obtain ⟨s', hr, hspec⟩ := run_clearAll st ns ps hs
  cases (run_clearAll_eq st ps hs).symm.trans hr
  exact hspec

theorem akin_sweepAll {s' : Store} (ps : List Pairing) (h : s.Akin s') :
    (sweepAll st ns ps s).Akin (sweepAll st ns ps s') := by
  induction ps generalizing s s' with
  | nil => exact h
  | cons p ps ih => exact ih (akin_cleared st (h.remove _ _))

/-- The listed pairings are deleted and cleared, but for the last of them, of which the clearing may
have been left. -/
def LeftAfter (ns : String) (l : List Pairing) (s x : Store) : Prop :=
  x = sweepAll st ns l s ∨ ∃ l' p, l = l' ++ [p] ∧
    (clearPairing st ns p.name p.content.tenantId).Passes
      ((sweepAll st ns l' s).remove .pairing (.inSpace ns p.name)) x

theorem passes_clearAll {ps : List Pairing} (hs : s.Calm) (hx : (clearAll st ns ps).Passes s x) :
    ∃ l r, ps = l ++ r ∧ LeftAfter st ns l s x := by
  induction ps generalizing s with
  | nil =>
    cases hx
    exact ⟨[], [], rfl, Or.inl rfl⟩
  | cons p ps ih =>
    have hs₁ := hs.remove .pairing (.inSpace ns p.name)
    have hclear {x : Store} (hx : (clearPairing st ns p.name p.content.tenantId).Passes
        (s.remove .pairing (.inSpace ns p.name)) x) :
        ∃ l r, p :: ps = l ++ r ∧ LeftAfter st ns l s x :=
      ⟨[p], ps, rfl, Or.inr ⟨[], p, rfl, hx⟩⟩
    rcases passes_bind.1 hx with hx | ⟨b, s₁, hb, hx⟩
    · rcases passes_delete hs hx with rfl | rfl
      · exact ⟨[], p :: ps, rfl, Or.inl rfl⟩
      · exact hclear (passes_start ..)
    cases (hs.run_delete ..).symm.trans hb
    rcases passes_bind.1 hx with hx | ⟨u, s₂, hu, hx⟩
    · exact hclear hx
    cases (run_clearPairing st ns p.name p.content.tenantId hs₁).symm.trans hu
    obtain ⟨l, r, rfl, h⟩ := ih (calm_cleared st ns _ _ hs₁) hx
    refine ⟨p :: l, r, rfl, h.imp id ?_⟩
    rintro ⟨l', q, rfl, hq⟩
    exact ⟨p :: l', q, rfl, hq⟩

theorem LeftAfter.find?_pairing {l : List Pairing} (h : LeftAfter st ns l s x) (hs : s.Calm)
    (key : Key) : x.find? .pairing key = (sweepAll st ns l s).find? .pairing key := by
  rcases h with rfl | ⟨l', p, rfl, hx⟩
  · rfl
  · have hu := (sweepAll_spec st ns l' hs).1.remove .pairing (.inSpace ns p.name)
    rw [sweepAll_append]
    show _ = (cleared st ns p.name p.content.tenantId _).find? .pairing key
    rw [agreeOff_cleared st ns p.name p.content.tenantId _ _ _ (by simp [Bundle.Shared, Children])]
    exact (within_clearPairing st ns p.name p.content.tenantId).passes hu.filed hx _ _
      (by simp [Bundle.Shared, Children])

/-- Clearing one of the pairings is no concern of the other one. -/
def Apart (p q : Pairing) : Prop := p.name ≠ q.name ∧ p.content.tenantId ≠ q.content.tenantId

theorem not_swept_of_apart {p : Pairing} {ps : List Pairing} (h : ∀ q ∈ ps, Apart p q) {k : Kind}
    {key : Key} (hk : Bundle.Shared ns p.content.tenantId k key ∨ Children ns p.name k key) :
    ¬Swept ns ps k key := by
  rintro ⟨q, hq, hsw⟩
  obtain ⟨hname, htenant⟩ := h q hq
  rcases hk with hk | ⟨hk, hkey⟩
  · rcases hsw with hsw | ⟨hsw, -⟩ | ⟨rfl, -⟩
    · exact htenant (Bundle.shared_inj hk hsw).2
    · rcases hk with ⟨rfl, -⟩ | ⟨rfl, -⟩ <;> simp at hsw
    · simp [Bundle.Shared] at hk
  · rcases hsw with hsw | ⟨-, hsw⟩ | ⟨rfl, -⟩
    · rcases hk with rfl | rfl <;> simp [Bundle.Shared] at hsw
    · exact hname (Key.inSpace_inj.1 (hkey.symm.trans hsw)).2
    · simp at hk

/-- Stored pairings of `forPair`'s shape, each of another tenant. -/
structure Listed (ns : String) (s : Store) (ps : List Pairing) : Prop where
  apart : ps.Pairwise Apart
  stored : ∀ p ∈ ps, s.find? .pairing (.inSpace ns p.name) = some p
  shaped : ∀ p ∈ ps, p.Shaped

namespace Listed
variable {st} {p : Pairing} {ps l r : List Pairing}

theorem of_select (hs : s.Filed) (hshape : s.Shaped) (ns microservice : String) :
    Listed ns s (s.select .pairing (some ns) (Naming.microserviceSelector microservice)) where
  apart := by
    refine (List.pairwise_map.1 (hs.nodup_names _ ns _)).imp_of_mem fun {p q} hp hq hne => ⟨hne, ?_⟩
    obtain ⟨-, hfp, hlp⟩ := hs.of_mem_space hp
    obtain ⟨-, hfq, hlq⟩ := hs.of_mem_space hq
    intro htenant
    refine hne ?_
    rw [Resource.name_eq (hshape hfp).name, Resource.name_eq (hshape hfq).name, htenant,
      (hshape hfp).satisfies_microserviceSelector_iff.1 hlp,
      (hshape hfq).satisfies_microserviceSelector_iff.1 hlq]
  stored p hp := (hs.of_mem_space hp).2.1
  shaped p hp := hshape (hs.of_mem_space hp).2.1

theorem left (h : Listed ns s (l ++ r)) : Listed ns s l where
  apart := (List.pairwise_append.1 h.apart).1
  stored p hp := h.stored p (List.mem_append_left r hp)
  shaped p hp := h.shaped p (List.mem_append_left r hp)

theorem tail (h : Listed ns s (p :: ps)) : Listed ns (sweep st ns s p) ps where
  apart := (List.pairwise_cons.1 h.apart).2
  stored q hq := by
    have hne : q.name ≠ p.name := ((List.pairwise_cons.1 h.apart).1 q hq).1.symm
    rw [sweep, agreeOff_cleared st ns p.name p.content.tenantId _ _ _
      (by simp [Bundle.Shared, Children]), find?_remove_of_ne _ (by simp [Key.inSpace_inj, hne]),
      h.stored q (List.mem_cons_of_mem p hq)]
  shaped q hq := h.shaped q (List.mem_cons_of_mem p hq)

theorem resolved_sweepAll (h : Listed ns s ps) (hs : s.Calm) {tenant : String}
    (hne : ∀ q ∈ ps, tenant ≠ q.content.tenantId) :
    (sweepAll st ns ps s).resolved ns tenant = s.resolved ns tenant := by
  obtain ⟨-, ha, hgone⟩ := sweepAll_spec st ns ps hs
  refine resolved_congr (fun id => ha _ _ (by simp [Swept, Bundle.Shared, Children])) ?_
  intro key r hpick
  by_cases hkey : ∃ q ∈ ps, key = .inSpace ns q.name
  · obtain ⟨q, hq, rfl⟩ := hkey
    rw [hgone q hq .pairing (Or.inl rfl), h.stored q hq]
    refine iff_of_false (by simp) fun hr => hne q hq ?_
    obtain rfl : q = r := Option.some.inj hr
    simp only [picks, Bool.and_eq_true] at hpick
    exact ((h.shaped q hq).satisfies_iff.1 hpick.2).symm
  · rw [ha _ _ ?_]
    rintro ⟨q, hq, hsw | ⟨hsw, -⟩ | ⟨-, rfl⟩⟩
    · simp [Bundle.Shared] at hsw
    · simp at hsw
    · exact hkey ⟨q, hq, rfl⟩

end Listed

/-- Nothing is left to do about a pairing: it has no children, and its tenant's bundle and routing
table are in line with the tenant's pairings, or gone as the tenant is. -/
structure Finished (ns : String) (s : Store) (p : Pairing) : Prop where
  childless : ∀ k key, Children ns p.name k key → s.find? k key = none
  alive : (s.find? .tenant (.inSpace ns p.content.tenantId)).isSome →
    Settled st s ns p.content.tenantId
  gone : s.find? .tenant (.inSpace ns p.content.tenantId) = none → s.Bare ns p.content.tenantId

section finished
variable {st} {p : Pairing} {ps : List Pairing} {s' : Store}

theorem Finished.congr (h : Finished st ns s p)
    (hslots : ∀ k key, Bundle.Shared ns p.content.tenantId k key ∨ Children ns p.name k key →
      s'.find? k key = s.find? k key)
    (htenant : s'.find? .tenant (.inSpace ns p.content.tenantId) =
      s.find? .tenant (.inSpace ns p.content.tenantId))
    (hr : s'.resolved ns p.content.tenantId = s.resolved ns p.content.tenantId) :
    Finished st ns s' p where
  childless k key hk := by rw [hslots k key (Or.inr hk), h.childless k key hk]
  alive halive := (h.alive (htenant ▸ halive)).congr st ns _ hr fun k key hk =>
    hslots k key (Or.inl hk)
  gone hgone := (Store.bare_congr fun k key hk => hslots k key (Or.inl hk)).2
    (h.gone (htenant ▸ hgone))

theorem Finished.akin (h : Finished st ns s p) (ha : s.Akin s') : Finished st ns s' p where
  childless k key hk := ha.find?_eq_none_iff.2 (h.childless k key hk)
  alive halive := (h.alive (by rwa [← ha.equal _ _ (by simp) (by simp)])).akin st ha
  gone hgone := by
    have hbare := h.gone (by rwa [← ha.equal _ _ (by simp) (by simp)])
    exact ⟨ha.find?_eq_none_iff.2 hbare.1, ha.find?_eq_none_iff.2 hbare.2⟩

theorem finished_sweep (s : Store) (p : Pairing) : Finished st ns (sweep st ns s p) p := by
  have htenant := agreeOff_cleared st ns p.name p.content.tenantId
    (s.remove .pairing (.inSpace ns p.name)) .tenant (.inSpace ns p.content.tenantId)
    (by simp [Bundle.Shared, Children])
  refine ⟨fun k key hk => ?_, fun halive => ?_, fun hgone => ?_⟩
  · obtain ⟨hk, rfl⟩ := hk
    exact find?_cleared st ns _ _ hk
  · exact settled_cleared st ns _ _ (htenant ▸ halive)
  · exact bare_cleared st (htenant ▸ hgone)

theorem Finished.sweepAll (h : Finished st ns s p) (hs : s.Calm) (hl : Listed ns s ps)
    (ha : ∀ q ∈ ps, Apart p q) : Finished st ns (sweepAll st ns ps s) p := by
  have hoff := (sweepAll_spec st ns ps hs).2.1
  exact h.congr (fun k key hk => hoff k key (not_swept_of_apart ha hk))
    (hoff _ _ (by simp [Swept, Bundle.Shared, Children]))
    (hl.resolved_sweepAll hs fun q hq => (ha q hq).2)

theorem Listed.finished (st : Settings) (h : Listed ns s ps) (hs : s.Calm) :
    ∀ p ∈ ps, Finished st ns (sweepAll st ns ps s) p := by
  induction ps generalizing s with
  | nil => exact fun p hp => absurd hp List.not_mem_nil
  | cons p ps ih =>
    have hs₁ : (sweep st ns s p).Calm := calm_cleared st ns _ _ (hs.remove _ _)
    intro q hq
    rcases List.mem_cons.1 hq with rfl | hq
    · exact (finished_sweep s q).sweepAll hs₁ h.tail (List.pairwise_cons.1 h.apart).1
    · exact ih h.tail hs₁ q hq

end finished

section left
variable {p : Pairing} {u : Store}

/-- A clearing that is left with nothing to do has come to what it ends with. -/
theorem alike_of_finished (hu : u.Calm)
    (hx : (clearPairing st ns p.name p.content.tenantId).Passes u x) (h : Finished st ns x p) :
    (cleared st ns p.name p.content.tenantId u).Alike x := by
  have hoff := (within_clearPairing st ns p.name p.content.tenantId).passes hu.filed hx
  have hoff' := agreeOff_cleared st ns p.name p.content.tenantId u
  intro k key
  by_cases hchild : Children ns p.name k key
  · rw [h.childless k key hchild]
    obtain ⟨hk, rfl⟩ := hchild
    exact (find?_cleared st ns _ _ hk).symm
  by_cases hshared : Bundle.Shared ns p.content.tenantId k key
  · have hkinds : k ≠ .deployment ∧ k ≠ .service := by
      rcases hshared with ⟨rfl, -⟩ | ⟨rfl, -⟩ <;> simp
    have hsync : (cleared st ns p.name p.content.tenantId u).find? k key =
        (afterSync st u ns p.content.tenantId).find? k key := by
      rw [cleared, find?_remove_of_ne _ (by simp [hkinds]), find?_remove_of_ne _ (by simp [hkinds])]
    rcases passes_clearPairing st hu hx with hx | rfl | rfl
    · -- The sync was left: it has nothing to do for a living tenant, and a dead one has no objects.
      have htenant : x.find? .tenant (.inSpace ns p.content.tenantId) =
          u.find? .tenant (.inSpace ns p.content.tenantId) :=
        hoff _ _ (by simp [Bundle.Shared, Children])
      cases halive : u.find? .tenant (.inSpace ns p.content.tenantId) with
      | some t =>
        have hu₁ : (u.find? .tenant (.inSpace ns p.content.tenantId)).isSome := by rw [halive]; rfl
        have hset := synced_of_settled st ns _ (h.alive (htenant ▸ hu₁))
        rw [hsync, afterSync, if_pos hu₁, ← synced_of_passes st hu hu₁ hx, hset]
      | none =>
        obtain ⟨hbundle, htable⟩ := h.gone (htenant.trans halive)
        rw [hsync, find?_afterSync_gone st halive hshared]
        rcases hshared with ⟨rfl, rfl⟩ | ⟨rfl, rfl⟩
        · exact hbundle
        · exact htable
    · rw [hsync, find?_remove_of_ne _ (by simp [hkinds])]
    · rfl
  · rw [hoff k key (by simp [hchild, hshared]), hoff' k key (by simp [hchild, hshared])]

/-- The rest of the loop, gone on with from there, comes to the same store as the whole loop if and
only if the clearing that was left had nothing to do. -/
theorem same_sweepAll_iff {ps : List Pairing} (hu : u.Calm) (ha : ∀ q ∈ ps, Apart p q)
    (hx : (clearPairing st ns p.name p.content.tenantId).Passes u x)
    (hfinished : Finished st ns (cleared st ns p.name p.content.tenantId u) p) :
    (sweepAll st ns ps (cleared st ns p.name p.content.tenantId u)).Same (sweepAll st ns ps x) ↔
      Finished st ns x p := by
  constructor
  · intro hsame
    have hoff := (within_clearPairing st ns p.name p.content.tenantId).passes hu.filed hx
    have hoff' := agreeOff_cleared st ns p.name p.content.tenantId u
    have hsx := (sweepAll_spec st ns ps (hx.calm hu)).2.1
    have hsu := (sweepAll_spec st ns ps (calm_cleared st ns p.name p.content.tenantId hu)).2.1
    -- The rest of the loop has left the slots of this pairing as they were.
    have hslot : ∀ k key, Bundle.Shared ns p.content.tenantId k key ∨ Children ns p.name k key →
        (x.find? k key).map (·.withVersion none) =
          ((cleared st ns p.name p.content.tenantId u).find? k key).map (·.withVersion none) := by
      intro k key hk
      have hnot := not_swept_of_apart ha hk
      rw [← hsx k key hnot, ← hsu k key hnot]
      exact hsame k key
    refine hfinished.akin ⟨fun k key => ?_, fun k key hc hi => ?_⟩
    · by_cases hk : Bundle.Shared ns p.content.tenantId k key ∨ Children ns p.name k key
      · exact hslot k key hk
      · rw [hoff k key hk, hoff' k key hk]
    · by_cases hk : Children ns p.name k key
      · have hmap := hslot k key (Or.inr hk)
        rw [hfinished.childless k key hk, Option.map_none, Option.map_eq_none_iff] at hmap
        rw [hmap, hfinished.childless k key hk]
      · have hnot : ¬(Bundle.Shared ns p.content.tenantId k key ∨ Children ns p.name k key) := by
          rintro ((⟨rfl, -⟩ | ⟨rfl, -⟩) | h)
          · exact hc rfl
          · exact hi rfl
          · exact hk h
        rw [hoff k key hnot, hoff' k key hnot]
  · exact fun h => (akin_sweepAll st ps (alike_of_finished st hu hx h).akin).same

end left

end Teardown
end TenantOperator
