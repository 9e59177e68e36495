import TenantOperator.Proofs.Tours.Entering

/-! Reconciles of pairings one after the other. What one of them leaves the others keep, but for the
entry of its area; once all of them were there, each finds nothing to do but to set its entry. -/
namespace TenantOperator
open Program Store

namespace Reconcile
variable {st : Settings} {s s₁ s' : Store} {ns : String} {p : Pairing} {q : ResolvedPairing}

/-- The reconcile of a live pairing writes children, bundles and tables; it takes no child away and
leaves no table that was current behind. -/
structure Onward (st : Settings) (ns : String) (s s' : Store) : Prop where
  calm : s.Calm → s'.Calm
  others : AgreeOff
    (fun k _ => k = .service ∨ k = .deployment ∨ k = .configMap ∨ k = .ingress) s s'
  children : ∀ k key, k = .service ∨ k = .deployment → (s.find? k key).isSome →
    (s'.find? k key).isSome
  tables : ∀ tenant, Routing.Current st s ns tenant → Routing.Current st s' ns tenant

namespace Onward

theorem refl (st : Settings) (ns : String) (s : Store) : Onward st ns s s where
  calm := id
  others := .refl _ s
  children _ _ _ h := h
  tables _ h := h

theorem trans (h : Onward st ns s s₁) (h' : Onward st ns s₁ s') : Onward st ns s s' where
  calm hs := h'.calm (h.calm hs)
  others := h.others.trans h'.others
  children k key hk hf := h'.children k key hk (h.children k key hk hf)
  tables tenant ht := h'.tables tenant (h.tables tenant ht)

theorem find?_eq (h : Onward st ns s s') {k : Kind} {key : Key}
    (hk : k ≠ .service ∧ k ≠ .deployment ∧ k ≠ .configMap ∧ k ≠ .ingress := by simp) :
    s'.find? k key = s.find? k key :=
  h.others k key (by simp [hk])

theorem resolve?_eq (h : Onward st ns s s') : s'.resolve? ns = s.resolve? ns := by
  funext p
  rw [resolve?, resolve?, h.find?_eq]

theorem select_pairing (h : Onward st ns s s') (space : Option String) (labels : Labels) :
    s'.select .pairing space labels = s.select .pairing space labels :=
  select_congr fun key p _ => by rw [h.find?_eq]

theorem ensured (st : Settings) (ns : String) (s : Store) {k : Kind}
    (hk : k = .service ∨ k = .deployment) (r : Resource k) : Onward st ns s (s.ensured r) := by
  have ha := s.agreeOff_ensured r
  constructor
  · exact fun hs => hs.ensured r
  · refine ha.mono fun l key hl => ?_
    rcases hk with rfl | rfl <;> simp [hl.1]
  · exact fun l key _ hf => isSome_find?_ensured_of_isSome hf
  · intro tenant ht
    refine ht.congr st ns tenant (ha.resolved_eq ?_ ?_) (ha _ _ ?_) <;>
      rcases hk with rfl | rfl <;> simp

theorem synthesize (hs : s.Calm) {x : Workload.Synthesis}
    (h : (Workload.synthesize p).run s = (.ok x, s₁)) : Onward st ns s s₁ := by
  have hend := passes_end (Workload.synthesize p) s
  rw [h] at hend
  rcases Workload.passes_synthesize hs hend with rfl | ⟨t, m, i, -, rfl | rfl⟩
  · exact .refl ..
  · exact .ensured st ns s (Or.inl rfl) _
  · exact (ensured st ns s (Or.inl rfl) _).trans (.ensured st ns _ (Or.inr rfl) _)

theorem enter (st : Settings) (ns : String) (s : Store) (q : ResolvedPairing) :
    Onward st ns s (enter ns s q) := by
  have ha := agreeOff_enter ns s q
  constructor
  · exact fun hs => calm_entered hs
  · exact ha.mono fun k key hk => by simp [hk.1]
  · intro k key hk hf
    rwa [ha _ _ (by rcases hk with rfl | rfl <;> simp)]
  · exact fun tenant ht => ht.congr st ns tenant (ha.resolved_eq (by simp) (by simp))
      (ha _ _ (by simp))

theorem rebuilt (st : Settings) (ns : String) (s : Store) (tenant : String) :
    Onward st ns s (Routing.rebuilt st s ns tenant) := by
  have ha := Routing.agreeOff_rebuilt st ns tenant s
  constructor
  · exact Routing.calm_rebuilt st ns tenant
  · exact ha.mono fun k key hk => by simp [hk.1]
  · intro k key hk hf
    rwa [ha _ _ (by rcases hk with rfl | rfl <;> simp)]
  · intro u hu
    by_cases hut : u = tenant
    · subst hut
      exact Routing.current_rebuilt st ns u s
    · exact hu.congr st ns u (ha.resolved_eq (by simp) (by simp))
        (ha _ _ (by simp [Routing.tableKey_inj, hut]))

end Onward

theorem run_live_ok (hs : s.Calm) {o : Outcome} (h : (live st ns p).run s = (.ok o, s')) :
    o = .converged ∧ p.content.validate = .ok () ∧
      (s.find? .tenant (.inSpace ns p.content.tenantId)).isSome ∧
      ∃ x s₁ q, (Workload.synthesize p).run s = (.ok x, s₁) ∧ s.resolve? ns p = some q ∧
        s' = Routing.rebuilt st (enter ns s₁ q) ns p.content.tenantId := by
  rw [live_eq, run_bind_ok] at h
  obtain ⟨_, s₁, hok, h⟩ := h
  obtain ⟨hv, rfl⟩ := run_ofExcept_ok hok
  rw [run_bind_ok] at h
  obtain ⟨t, s₂, ht, h⟩ := h
  obtain ⟨hft, rfl⟩ := Workload.run_parent_ok ht
  rw [run_bind_ok] at h
  obtain ⟨x, s₃, hx, h⟩ := h
  have hon : Onward st ns s₂ s₃ := .synthesize hs hx
  rw [announce, run_bind_ok] at h
  obtain ⟨m, s₄, hm, h⟩ := h
  obtain ⟨hfm, rfl⟩ := Workload.run_parent_ok hm
  have halive : (s₂.find? .tenant (.inSpace ns p.content.tenantId)).isSome := by rw [hft]; rfl
  rw [run_bind_of_ok (run_publish_alive st (hon.calm hs) (by rwa [hon.find?_eq]))] at h
  cases h
  refine ⟨rfl, hv, halive, x, s₄, ⟨p, m.content.functionalArea⟩, hx, ?_, rfl⟩
  rw [← hon.resolve?_eq, resolve?, hfm]
  rfl

/-- A live pairing that finds all of it in place but for, perhaps, the entry of its area. -/
structure Standing (st : Settings) (s : Store) (ns : String) (p : Pairing) : Prop where
  valid : p.content.validate = .ok ()
  tenant : (s.find? .tenant (.inSpace ns p.content.tenantId)).isSome
  ready : Workload.Ready s p
  served : (s.resolve? ns p).isSome
  table : Routing.Current st s ns p.content.tenantId

theorem ready_onward (h : Workload.Ready s p) (hon : Onward st ns s s') :
    Workload.Ready s' p := by
  obtain ⟨space, hns, h⟩ := h
  refine ⟨space, hns, ?_⟩
  rcases h with hd | ⟨t, m, i, ht, hm, hi, hsv, hd⟩
  · exact Or.inl (hon.children _ _ (Or.inr rfl) hd)
  · refine Or.inr ⟨t, m, i, ?_, ?_, ?_, hon.children _ _ (Or.inl rfl) hsv,
      hon.children _ _ (Or.inr rfl) hd⟩ <;> rwa [hon.find?_eq]

theorem Standing.onward (h : Standing st s ns p) (hon : Onward st ns s s') :
    Standing st s' ns p where
  valid := h.valid
  tenant := by
    rw [hon.find?_eq]
    exact h.tenant
  ready := ready_onward h.ready hon
  served := by
    rw [hon.resolve?_eq]
    exact h.served
  table := hon.tables _ h.table

theorem run_live_standing (hs : s.Calm) {o : Outcome}
    (h : (live st ns p).run s = (.ok o, s')) :
    o = .converged ∧ Onward st ns s s' ∧ Standing st s' ns p ∧
      ∃ q, s.resolve? ns p = some q ∧ ∀ u, Bundle.entries s' ns u =
        if p.content.tenantId = u then (Bundle.entries s ns u).insert q.area q.entry
        else Bundle.entries s ns u := by
  obtain ⟨rfl, hv, halive, x, s₁, q, hx, hq, rfl⟩ := run_live_ok hs h
  have hmade : Onward st ns s s₁ := .synthesize hs hx
  have hset : Onward st ns s₁ (Routing.rebuilt st (enter ns s₁ q) ns p.content.tenantId) :=
    (Onward.enter st ns s₁ q).trans (.rebuilt st ns _ _)
  have hon := hmade.trans hset
  have hready := ready_onward (Workload.run_synthesize_ok hx).1 hset
  refine ⟨rfl, hon, ⟨hv, ?_, hready, ?_, Routing.current_rebuilt ..⟩, q, hq, fun u => ?_⟩
  · rwa [hon.find?_eq]
  · rw [hon.resolve?_eq, hq]
    rfl
  · have htable := Routing.agreeOff_rebuilt st ns p.content.tenantId (enter ns s₁ q)
    have hchildren : Bundle.entries s₁ ns u = Bundle.entries s ns u :=
      Bundle.entries_congr ((Workload.run_synthesize_ok hx).2.1 _ _ (by simp))
    rw [Bundle.entries_congr (htable _ _ (by simp)), entries_enter,
      pairing_of_resolve? hq, hchildren]

/-- The reconcile of a standing pairing sets its entry and does nothing else. -/
theorem run_pairing_standing (hs : s.Calm) {key : Key} (hp : s.find? .pairing key = some p)
    (h : Standing st s ns p) (hq : s.resolve? ns p = some q) :
    (pairing st ns key).run s = (.ok .converged, enter ns s q) := by
  obtain ⟨t, ht⟩ := Option.isSome_iff_exists.1 h.tenant
  obtain ⟨x, hx⟩ := Workload.rests_synthesize hs h.ready
  rw [resolve?, Option.map_eq_some_iff] at hq
  obtain ⟨m, hm, rfl⟩ := hq
  have htable : published st s ns p.content.tenantId m.content.functionalArea
      p.content.configuration = enter ns s ⟨p, m.content.functionalArea⟩ :=
    Routing.rebuilt_of_current st ns _
      ((Onward.enter st ns s ⟨p, m.content.functionalArea⟩).tables _ h.table)
  rw [pairing_eq, run_bind_of_ok (hs.rests_get hp)]
  dsimp only
  rw [live_eq, run_bind_of_ok (rests_ofExcept h.valid s),
    run_bind_of_ok (Workload.rests_parent hs ht), run_bind_of_ok hx, announce,
    run_bind_of_ok (Workload.rests_parent hs hm),
    run_bind_of_ok (run_publish_alive st hs h.tenant), htable]
  rfl

end Reconcile

/-- Reconciles one after the other; the first that fails ends the run. -/
def reconcileAll (st : Settings) : List ReconcileRequest → Program (List Outcome)
  | [] => return []
  | r :: rs => do
    let o ← reconcile st r
    let os ← reconcileAll st rs
    return o :: os

namespace Reconcile
variable {st : Settings} {s s' : Store} {ns : String} {p : Pairing} {ps : List Pairing}

def request (p : Pairing) : ReconcileRequest := ⟨.pairing, p.key⟩

def Listed (s : Store) (ns : String) (ps : List Pairing) : Prop :=
  ∀ p ∈ ps, p.metadata.ns = some ns ∧ s.find? .pairing p.key = some p

theorem Listed.onward (h : Listed s ns ps) (hon : Onward st ns s s') : Listed s' ns ps := by
  intro p hp
  rw [hon.find?_eq]
  exact h p hp

theorem reconcile_request (h : p.metadata.ns = some ns) :
    reconcile st (request p) = pairing st ns p.key := by
  have hns : p.key.ns = some ns := h
  simp only [reconcile, request, inSpace, hns]

/-- A first pass over the pairings makes all of them standing, and the last entry of each area
decides. -/
theorem run_reconcileAll_ok (hs : s.Calm) (hps : Listed s ns ps) {os : List Outcome}
    (h : (reconcileAll st (ps.map request)).run s = (.ok os, s')) :
    os = ps.map (fun _ => .converged) ∧ Onward st ns s s' ∧ (∀ p ∈ ps, Standing st s' ns p) ∧
      ∀ u, Bundle.entries s' ns u = Bundle.overwrite (Bundle.entries s ns u)
        ((ps.filterMap (s.resolve? ns)).filter (·.pairing.content.tenantId = u)) := by
  induction ps generalizing s os with
  | nil =>
    cases h
    exact ⟨rfl, .refl .., by simp, fun u => rfl⟩
  | cons p ps ih =>
    obtain ⟨hns, hfind⟩ := hps p List.mem_cons_self
    rw [List.map_cons, reconcileAll, reconcile_request hns, run_bind_ok] at h
    obtain ⟨o, s₁, ho, h⟩ := h
    rw [run_bind_ok] at h
    obtain ⟨os', s₂, hos, h⟩ := h
    cases h
    rw [pairing_eq, run_bind_of_ok (hs.rests_get hfind)] at ho
    obtain ⟨rfl, hon, hstanding, q, hq, hentries⟩ := run_live_standing hs ho
    obtain ⟨rfl, hon', hall, hrest⟩ := ih (hon.calm hs)
      (Listed.onward (fun p hp => hps p (List.mem_cons_of_mem _ hp)) hon) hos
    refine ⟨rfl, hon.trans hon', ?_, fun u => ?_⟩
    · intro r hr
      rcases List.mem_cons.1 hr with rfl | hr
      · exact hstanding.onward hon'
      · exact hall r hr
    · rw [hrest, hon.resolve?_eq, hentries, List.filterMap_cons, hq, ← pairing_of_resolve? hq]
      dsimp only
      by_cases hu : q.pairing.content.tenantId = u
      · rw [List.filter_cons_of_pos (by simpa using hu), if_pos hu]
        rfl
      · rw [List.filter_cons_of_neg (by simpa using hu), if_neg hu]

theorem run_reconcileAll_standing (hs : s.Calm) (hps : Listed s ns ps)
    (hall : ∀ p ∈ ps, Standing st s ns p) :
    (reconcileAll st (ps.map request)).run s =
      (.ok (ps.map fun _ => .converged), (ps.filterMap (s.resolve? ns)).foldl (enter ns) s) := by
  induction ps generalizing s with
  | nil => rfl
  | cons p ps ih =>
    obtain ⟨hns, hfind⟩ := hps p List.mem_cons_self
    have hstanding := hall p List.mem_cons_self
    obtain ⟨q, hq⟩ := Option.isSome_iff_exists.1 hstanding.served
    have hon := Onward.enter st ns s q
    have hrest := ih (hon.calm hs)
      (Listed.onward (fun p hp => hps p (List.mem_cons_of_mem _ hp)) hon)
      fun r hr => (hall r (List.mem_cons_of_mem p hr)).onward hon
    rw [List.map_cons, reconcileAll, reconcile_request hns,
      run_bind_of_ok (run_pairing_standing hs hfind hstanding hq), run_bind_of_ok hrest,
      hon.resolve?_eq, List.filterMap_cons, hq]
    rfl

end Reconcile
end TenantOperator
