import TenantOperator.Proofs.Interruption.Sweeps

/-! The teardown of a tenant or a microservice, left at any store call and run again. The second run
always ends well, and it comes to the objects of an undisturbed one unless the first run was left
between the deletion of a pairing and the end of its clearing. -/
namespace TenantOperator
namespace Teardown
open Program Store
variable (st : Settings) {s x : Store} {ns id : String}

theorem Listed.find?_of_left {l r : List Pairing} (h : Listed ns s (l ++ r)) (hs : s.Calm)
    (hx : LeftAfter st ns l s x) :
    (∀ p ∈ l, x.find? .pairing (.inSpace ns p.name) = none) ∧
      ∀ p ∈ r, x.find? .pairing (.inSpace ns p.name) = some p := by
  obtain ⟨-, hoff, hgone⟩ := sweepAll_spec st ns l hs
  refine ⟨fun p hp => by rw [hx.find?_pairing st hs, hgone p hp _ (Or.inl rfl)], fun p hp => ?_⟩
  rw [hx.find?_pairing st hs, hoff _ _ ?_, h.stored p (List.mem_append_right l hp)]
  rintro ⟨q, hq, hsw | ⟨hsw, -⟩ | ⟨-, hkey⟩⟩
  · simp [Bundle.Shared] at hsw
  · simp at hsw
  · exact ((List.pairwise_append.1 h.apart).2.2 q hq p hp).1 (Key.inSpace_inj.1 hkey).2.symm

theorem leftAfter_of_passes (hs : s.Calm) {selector : Labels}
    (hx : (pairings st ns selector).Passes s x) :
    ∃ l r, s.select .pairing (some ns) selector = l ++ r ∧ LeftAfter st ns l s x := by
  rcases passes_read_bind hs (reads_list ..) hx with rfl | ⟨ps, hps, hx⟩
  · exact ⟨[], _, rfl, Or.inl rfl⟩
  · cases (hs.run_list ..).symm.trans hps
    exact passes_clearAll st hs hx

theorem Listed.select_of_left {l r : List Pairing} (hs : s.Calm) (h : Listed ns s (l ++ r))
    {selector : Labels} (hps : s.select .pairing (some ns) selector = l ++ r)
    (hx : (pairings st ns selector).Passes s x) (hleft : LeftAfter st ns l s x) :
    x.select .pairing (some ns) selector = r := by
  obtain ⟨hgone, hthere⟩ := h.find?_of_left st hs hleft
  have hkey : ∀ p ∈ l ++ r, p.key = .inSpace ns p.name := fun p hp =>
    (hs.filed.of_mem_space (hps ▸ hp)).1
  rw [hs.filed.select_eq_filter (fun key p => find?_of_passes_clears
    (Reconcile.clears_pairings st _) hs.filed hx (by simp) (by simp)), hps, List.filter_append]
  have hnil : l.filter (fun p => (x.find? .pairing p.key).isSome) = [] := by
    refine List.filter_eq_nil_iff.2 fun p hp => ?_
    rw [hkey p (List.mem_append_left r hp), hgone p hp]
    simp
  have hall : r.filter (fun p => (x.find? .pairing p.key).isSome) = r := by
    refine List.filter_eq_self.2 fun p hp => ?_
    rw [hkey p (List.mem_append_right l hp), hthere p hp]
    rfl
  rw [hnil, hall, List.nil_append]

/-- What is left of the loop comes to the same objects if and only if all pairings before it are
finished. -/
theorem Listed.same_iff {l r : List Pairing} (hs : s.Calm) (h : Listed ns s (l ++ r))
    (hleft : LeftAfter st ns l s x) :
    (sweepAll st ns (l ++ r) s).Same (sweepAll st ns r x) ↔ ∀ p ∈ l, Finished st ns x p := by
  rw [sweepAll_append]
  rcases hleft with rfl | ⟨l', p, rfl, hclear⟩
  · exact iff_of_true (fun _ _ => rfl) (h.left.finished st hs)
  · have hu := (sweepAll_spec st ns l' hs).1.remove .pairing (.inSpace ns p.name)
    have hlast : sweepAll st ns (l' ++ [p]) s = cleared st ns p.name p.content.tenantId
        ((sweepAll st ns l' s).remove .pairing (.inSpace ns p.name)) :=
      sweepAll_append st ns l' [p] s
    have hfinished := h.left.finished st hs
    rw [hlast] at hfinished ⊢
    rw [same_sweepAll_iff st hu (fun q hq => (List.pairwise_append.1 h.apart).2.2 p (by simp) q hq)
      hclear (hfinished p (by simp))]
    refine ⟨fun hp q hq => ?_, fun hall => hall p (by simp)⟩
    exact (hfinished q hq).akin (alike_of_finished st hu hclear hp).akin

theorem same_microservice_iff (hs : s.Calm) (hshape : s.Shaped)
    (hx : (microservice st ns id).Passes s x) :
    ∃ z y, (microservice st ns id).run s = (.ok (), z) ∧
      (microservice st ns id).run x = (.ok (), y) ∧
      (z.Same y ↔ ∀ p ∈ s.select .pairing (some ns) (Naming.microserviceSelector id),
        x.find? .pairing p.key = none → Finished st ns x p) := by
  obtain ⟨l, r, hps, hleft⟩ := leftAfter_of_passes st hs hx
  have hl : Listed ns s (l ++ r) := hps ▸ Listed.of_select hs.filed hshape ns id
  have hrun : (microservice st ns id).run x = _ := run_pairings_eq st (hx.calm hs) _
  refine ⟨_, _, run_pairings_eq st hs _, hrun, ?_⟩
  rw [hl.select_of_left st hs hps hx hleft, hps, hl.same_iff st hs hleft]
  -- The first run has deleted the pairings before the place where it was left, and no others.
  obtain ⟨hgone, hthere⟩ := hl.find?_of_left st hs hleft
  have hkey : ∀ p ∈ l ++ r, p.key = .inSpace ns p.name := fun p hp =>
    (hs.filed.of_mem_space (hps ▸ hp)).1
  constructor
  · intro h p hp hnone
    rw [hkey p hp] at hnone
    rcases List.mem_append.1 hp with hp | hp
    · exact h p hp
    · rw [hthere p hp] at hnone
      cases hnone
  · intro h p hp
    have hmem := List.mem_append_left r hp
    exact h p hmem (hkey p hmem ▸ hgone p hp)

theorem within_clearAll (ps : List Pairing) : (clearAll st ns ps).Within (Swept ns ps) := by
  induction ps with
  | nil => trivial
  | cons p ps ih =>
    refine every_bind ((within_delete ..).imp fun k key h => ⟨p, by simp, Or.inr (Or.inr h)⟩)
      fun _ => every_bind ((within_clearPairing st ns _ _).imp fun k key h =>
        ⟨p, by simp, h.elim Or.inl fun h => Or.inr (Or.inl h)⟩) fun _ => ih.imp ?_
    rintro k key ⟨q, hq, h⟩
    exact ⟨q, List.mem_cons_of_mem p hq, h⟩

/-- An undisturbed run takes what the tenant owned and nothing else. -/
theorem run_tenant_owned (ns id : String) (hs : s.Calm) (hshape : s.Shaped) :
    ∃ s', (tenant st ns id).run s = (.ok (), s') ∧ AgreeOff (Owned s ns id) s s' ∧
      ∀ k key, Owned s ns id k key → s'.find? k key = none := by
  obtain ⟨s', hr, -, ha, hnone, -⟩ := run_tenant st ns id hs
  refine ⟨s', hr, ha.mono fun k key h => ?_, hnone⟩
  exact h.elim Or.inl (owned_of_swept hs.filed hshape)

theorem agreeOff_of_passes_tenant (hs : s.Calm) (hshape : s.Shaped)
    (hx : (tenant st ns id).Passes s x) : AgreeOff (Owned s ns id) s x := by
  have howned {k : Kind} {key : Key} (h : Swept ns (s.select .pairing (some ns)
      (Naming.tenantSelector id)) k key) : Owned s ns id k key := owned_of_swept hs.filed hshape h
  rcases passes_bind.1 hx with hx | ⟨u, s₁, hr, hx⟩
  · rcases passes_read_bind hs (reads_list ..) hx with rfl | ⟨ps, hps, hx⟩
    · exact .refl _ _
    · cases (hs.run_list ..).symm.trans hps
      exact ((within_clearAll st _).passes hs.filed hx).mono fun _ _ => howned
  · obtain ⟨s', hr', hc, ha, -⟩ := run_pairings st ns hs (Naming.tenantSelector id)
    cases hr'.symm.trans hr
    have hrest : (Bundle.deleteTenant ns id >>= fun _ => Routing.delete ns id >>= fun _ =>
        (pure () : Program Unit)).Within (Bundle.Shared ns id) := by
      refine every_bind (every_bind ((within_delete ..).imp fun _ _ => Or.inl) fun b => ?_) fun _ =>
        every_bind (every_bind ((within_delete ..).imp fun _ _ => Or.inr) fun b => ?_) fun _ =>
          trivial
      · cases b <;> trivial
      · cases b <;> trivial
    exact (ha.mono fun _ _ => howned).trans ((hrest.passes hc.filed hx).mono fun _ _ => Or.inl)

section tenant
variable (hs : s.Calm) (hshape : s.Shaped) (hx : (tenant st ns id).Passes s x)
include hs hx

theorem mem_select_of_passes {p : Pairing} :
    p ∈ x.select .pairing (some ns) (Naming.tenantSelector id) ↔
      p ∈ s.select .pairing (some ns) (Naming.tenantSelector id) ∧
        (x.find? .pairing p.key).isSome := by
  rw [hs.filed.select_eq_filter (fun key p => find?_of_passes_clears
    (Reconcile.clears_clearTenant st id) hs.filed hx (by simp) (by simp)), List.mem_filter]

theorem owned_of_passes {k : Kind} {key : Key} (h : Owned x ns id k key) : Owned s ns id k key := by
  rcases h with h | ⟨hk, p, hp, rfl⟩
  · exact Or.inl h
  · exact Or.inr ⟨hk, p, ((mem_select_of_passes st hs hx).1 hp).1, rfl⟩

theorem not_owned_of_passes {p : Pairing} (hp : x.find? .pairing p.key = none) {k : Kind}
    (hk : k = .deployment ∨ k = .service) : ¬Owned x ns id k p.key := by
  rintro (h | ⟨-, q, hq, hkey⟩)
  · rcases hk with rfl | rfl <;> simp [Bundle.Shared] at h
  · have hq' := ((mem_select_of_passes st hs hx).1 hq).2
    rw [← hkey, hp] at hq'
    cases hq'

include hshape

theorem same_tenant_iff :
    ∃ z y, (tenant st ns id).run s = (.ok (), z) ∧ (tenant st ns id).run x = (.ok (), y) ∧
      (z.Same y ↔ ∀ p ∈ s.select .pairing (some ns) (Naming.tenantSelector id),
        x.find? .pairing p.key = none →
          x.find? .deployment p.key = none ∧ x.find? .service p.key = none) := by
  have hsub : ∀ key (p : Pairing), x.find? .pairing key = some p → s.find? .pairing key = some p :=
    fun key p => find?_of_passes_clears (Reconcile.clears_clearTenant st id) hs.filed hx (by simp)
      (by simp)
  obtain ⟨z, hz, haz, hnz⟩ := run_tenant_owned st ns id hs hshape
  obtain ⟨y, hy, hay, hny⟩ := run_tenant_owned st ns id (hx.calm hs) fun key p hp =>
    hshape (hsub key p hp)
  have hsx := agreeOff_of_passes_tenant st hs hshape hx
  refine ⟨z, y, hz, hy, fun hsame p hp hnone => ?_, fun h => Alike.same fun k key => ?_⟩
  · have hchild {k : Kind} (hk : k = .deployment ∨ k = .service) : x.find? k p.key = none := by
      have hslot := hsame k p.key
      rw [hnz k p.key (Or.inr ⟨Or.inr hk, p, hp, rfl⟩),
        hay k p.key (not_owned_of_passes st hs hx hnone hk), Option.map_none,
        Option.map_eq_none_iff] at hslot
      exact hslot
    exact ⟨hchild (Or.inl rfl), hchild (Or.inr rfl)⟩
  · by_cases hos : Owned s ns id k key
    · by_cases hox : Owned x ns id k key
      · rw [hny k key hox, hnz k key hos]
      · -- The slot is one of a pairing that the first run deleted.
        rw [hnz k key hos, hay k key hox]
        rcases hos with hos | ⟨hk, p, hp, rfl⟩
        · exact absurd (Or.inl hos) hox
        have hnone : x.find? .pairing p.key = none := by
          rw [← Option.not_isSome_iff_eq_none]
          intro hthere
          have hpx := (mem_select_of_passes st hs hx).2 ⟨hp, hthere⟩
          exact hox (Or.inr ⟨hk, p, hpx, rfl⟩)
        rcases hk with rfl | rfl | rfl
        · exact hnone
        · exact (h p hp hnone).1
        · exact (h p hp hnone).2
    · have hox : ¬Owned x ns id k key := fun hox => hos (owned_of_passes st hs hx hox)
      rw [hay k key hox, hsx k key hos, haz k key hos]

end tenant

/-- The teardown of a tenant or of a microservice is left at any store calls, be it by failures, and
run again. The second run ends well, and it comes to the objects of an undisturbed one, up to
versions, if and only if the first run had nothing left to do about the pairings that it deleted:
their children were gone and, with a microservice, their tenants' bundles and tables in line. -/
theorem repeats_iff_of_left (hs : s.Reached) (hf : s.faults = []) (hshape : s.Shaped)
    (ns id : String) :
    (∀ q x, (tenant st ns id).Falters s q x →
      ∃ z y, (tenant st ns id).run s = (.ok (), z) ∧ (tenant st ns id).run x = (.ok (), y) ∧
        (z.Same y ↔ ∀ p ∈ s.select .pairing (some ns) (Naming.tenantSelector id),
          x.find? .pairing p.key = none →
            x.find? .deployment p.key = none ∧ x.find? .service p.key = none)) ∧
    ∀ q x, (microservice st ns id).Falters s q x →
      ∃ z y, (microservice st ns id).run s = (.ok (), z) ∧
        (microservice st ns id).run x = (.ok (), y) ∧
        (z.Same y ↔ ∀ p ∈ s.select .pairing (some ns) (Naming.microserviceSelector id),
          x.find? .pairing p.key = none → Finished st ns x p) := by
  have hc : s.Calm := ⟨hs.filed, hf⟩
  have hsteps := Reconcile.steps_steadfast st
  constructor
  · intro q x hq
    exact same_tenant_iff st hc hshape (hsteps.clearTenant ns id hc hq).1
  · intro q x hq
    exact same_microservice_iff st hc hshape (hsteps.pairings ns _ hc hq).1

section stranded

def madeOfC : Pairing := (Pairing.forPair "dc1" "a" "c" .empty).withVersion (some "1")

def stranded : Store :=
  let t := Matrix.bareTenant "a"
  let m := Matrix.bareMicroservice "c"
  let s := (({} : Store).perform (.create .pairing (Pairing.forPair "dc1" "a" "c" .empty))).2
  let s := (s.perform (.create .service (Workload.service Matrix.bareInstance t m))).2
  (s.perform (.create .deployment (Workload.deployment Matrix.bareInstance t m))).2

theorem reached_stranded : stranded.Reached := .call _ (.call _ (.call _ .fresh))

theorem eq_of_find?_stranded {key : Key} {p : Pairing} (h : stranded.find? .pairing key = some p) :
    p = madeOfC :=
  congrArg Prod.snd (List.mem_singleton.1 (SortedMap.find?_eq_some_iff.1 h))

theorem shaped_stranded : stranded.Shaped := fun key p h => by
  rw [eq_of_find?_stranded h]
  exact Pairing.shaped_forPair ..

/-- Left when the pairing and its children are gone, the teardown of the tenant is made good by
another run; left when the pairing is deleted, that of the microservice is not. -/
theorem repeats_stranded :
    (∃ z y, (tenant {} "dc1" "a").run stranded = (.ok (), z) ∧
      (tenant {} "dc1" "a").run ((tenant {} "dc1" "a").steps 11 stranded).2 = (.ok (), y) ∧
      z.Same y) ∧
    ∃ z y, (microservice {} "dc1" "c").run stranded = (.ok (), z) ∧
      (microservice {} "dc1" "c").run ((microservice {} "dc1" "c").steps 2 stranded).2 =
        (.ok (), y) ∧
      ¬z.Same y := by
  have hrepeats := repeats_iff_of_left {} reached_stranded rfl shaped_stranded "dc1"
  constructor
  · obtain ⟨z, y, hz, hy, hiff⟩ := (hrepeats "a").1 _ _
      (falters_failed (n := 11) rfl (.store "down") rfl)
    refine ⟨z, y, hz, hy, hiff.2 fun p hp hnone => ?_⟩
    rw [eq_of_find?_stranded (reached_stranded.filed.of_mem_space hp).2.1]
    exact ⟨rfl, rfl⟩
  · obtain ⟨z, y, hz, hy, hiff⟩ := (hrepeats "c").2 _ _
      (falters_failed (n := 2) rfl (.store "down") rfl)
    refine ⟨z, y, hz, hy, fun hsame => ?_⟩
    have hfinished := hiff.1 hsame madeOfC (List.mem_singleton_self _) rfl
    cases hfinished.childless .deployment _ ⟨Or.inl rfl, rfl⟩

/-- The deletion of the Deployment fails when the pairing is deleted already, and the next run does
not come back to it. -/
theorem not_forall_same :
    ¬∀ (st : Settings) (s x z : Store) (ns id : String) (T : Program Unit) (n : Nat) (c : Call)
      (next : Except Error c.Answer → Program Unit) (e : Error),
      s.Reached → s.faults = [] → s.Shaped →
      (∀ key, (s.find? .pairing key).isSome →
        (s.find? .deployment key).isSome ∧ (s.find? .service key).isSome) →
      (T = tenant st ns id ∧ s.find? .tenant (.inSpace ns id) = none ∨
        T = microservice st ns id ∧ s.find? .microservice (.inSpace ns id) = none) →
      T.steps n s = (.call c next, x) → next (.error e) = .done (.error e) →
      T.run s = (.ok (), z) → ∃ y, T.run x = (.ok (), y) ∧ z.Same y := by
  intro h
  have hchildren : ∀ key, (stranded.find? .pairing key).isSome →
      (stranded.find? .deployment key).isSome ∧ (stranded.find? .service key).isSome := by
    intro key hp
    obtain ⟨p, hp⟩ := Option.isSome_iff_exists.1 hp
    rw [← reached_stranded.filed hp, eq_of_find?_stranded hp]
    exact ⟨rfl, rfl⟩
  obtain ⟨y, hy, hsame⟩ := h {} stranded _ _ "dc1" "a" (tenant {} "dc1" "a") 9 _ _ (.store "down")
    reached_stranded rfl shaped_stranded hchildren (Or.inl ⟨rfl, rfl⟩) rfl rfl rfl
  cases hy
  cases hsame .deployment madeOfC.key

end stranded

end Teardown
end TenantOperator
