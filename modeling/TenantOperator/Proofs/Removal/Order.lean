import TenantOperator.Proofs.Interruption.Teardowns
import TenantOperator.Proofs.Removal.Removed

/-! The order in which a tenant that is gone is torn down. Each of its pairings is cleared with a
sync that finds the tenant gone, so bundle and routing table go with the first pairing, ahead of its
children and of all pairings after it. -/
namespace TenantOperator
open Program Store

namespace Program
variable {α β : Type} {s x : Store} {p : Program α} {f : α → Program β} {c : Call}

/-- The run from `s` comes to make a call, and finds the store `x` when it does. -/
def Calls : Program α → Store → Call → Store → Prop
  | .done _, _, _, _ => False
  | .call c' next, s, c, x =>
    c = c' ∧ x = s ∨ (next (s.perform c').1).Calls (s.perform c').2 c x

theorem calls_perform {c' : Call} : (perform c').Calls s c x ↔ c = c' ∧ x = s :=
  or_iff_left id

theorem calls_bind : (p >>= f).Calls s c x ↔
    p.Calls s c x ∨ ∃ a s₁, p.run s = (.ok a, s₁) ∧ (f a).Calls s₁ c x := by
  induction p generalizing s with
  | done r =>
    constructor
    · intro h
      cases r with
      | ok a => exact Or.inr ⟨a, s, rfl, h⟩
      | error e => exact h.elim
    · rintro (h | ⟨a, s₁, he, h⟩)
      · exact h.elim
      · cases he
        exact h
  | call c' next ih => exact (or_congr_right (ih _)).trans or_assoc.symm

theorem calls_bind_left (h : p.Calls s c x) : (p >>= f).Calls s c x := calls_bind.2 (Or.inl h)

theorem calls_bind_right {a : α} {s₁ : Store} (hp : p.run s = (.ok a, s₁))
    (h : (f a).Calls s₁ c x) : (p >>= f).Calls s c x :=
  calls_bind.2 (Or.inr ⟨a, s₁, hp, h⟩)

theorem Calls.passes (h : p.Calls s c x) : p.Passes s x := by
  induction p generalizing s with
  | done r => exact h.elim
  | call c' next ih =>
    rcases h with ⟨-, rfl⟩ | h
    · exact Or.inl rfl
    · exact Or.inr (ih _ h)

theorem Every.calls {Q : Call → Prop} (hp : p.Every Q) (hs : s.Filed) (h : p.Calls s c x) :
    Q c := by
  induction p generalizing s with
  | done r => exact h.elim
  | call c' next ih =>
    rcases h with ⟨rfl, -⟩ | h
    · exact hp.1
    · exact ih _ (hp.2 _ (hs.admits c')) (hs.perform c') h

end Program

namespace Teardown
variable (st : Settings) {s x : Store} {ns tenant : String}

/-- In `x` no pairing that `s` has of the tenant has a child. -/
def Vacated (s : Store) (ns tenant : String) (x : Store) : Prop :=
  ∀ p ∈ s.select .pairing (some ns) (Naming.tenantSelector tenant),
    x.find? .deployment (.inSpace ns p.name) = none ∧ x.find? .service (.inSpace ns p.name) = none

/-- A run that takes bundle and table away last: the bundle when no pairing has a child any more,
and the table after the bundle. -/
structure InOrder (T : Program Outcome) (s : Store) (ns tenant : String) : Prop where
  bundle : ∀ x, T.Calls s (.delete .configMap (Bundle.tenantKey ns tenant)) x →
    (x.find? .configMap (Bundle.tenantKey ns tenant)).isSome → Vacated s ns tenant x
  table : ∀ x, T.Calls s (.delete .ingress (Routing.tableKey ns tenant)) x →
    (x.find? .ingress (Routing.tableKey ns tenant)).isSome →
      Vacated s ns tenant x ∧ x.find? .configMap (Bundle.tenantKey ns tenant) = none

/-- What is not there is not taken away out of order. -/
theorem inOrder_of_bare {T : Program Outcome} (h : ∀ x, T.Passes s x → x.Bare ns tenant) :
    InOrder T s ns tenant where
  bundle x hx hsome := by
    rw [(h x hx.passes).1] at hsome
    cases hsome
  table x hx hsome := by
    rw [(h x hx.passes).2] at hsome
    cases hsome

theorem reconcile_tenant_eq (ns tenant : String) :
    reconcile st ⟨.tenant, .inSpace ns tenant⟩ = Program.get .tenant (.inSpace ns tenant) >>= fun
      | some t => Matrix.resolveTenant t >>= fun _ => pure Outcome.converged
      | none => Teardown.tenant st ns tenant >>= fun _ => pure Outcome.tornDown := rfl

theorem bare_afterSync (hgone : s.find? .tenant (.inSpace ns tenant) = none) :
    (afterSync st s ns tenant).Bare ns tenant :=
  ⟨find?_afterSync_gone st hgone (Or.inl ⟨rfl, rfl⟩),
    find?_afterSync_gone st hgone (Or.inr ⟨rfl, rfl⟩)⟩

theorem bare_remove {k : Kind} {key : Key} (h : s.Bare ns tenant) :
    (s.remove k key).Bare ns tenant := by
  have hslot {l : Kind} {key' : Key} (hnone : s.find? l key' = none) :
      (s.remove k key).find? l key' = none := by
    by_cases hl : l = k ∧ key' = key
    · obtain ⟨rfl, rfl⟩ := hl
      exact find?_remove_self ..
    · rw [find?_remove_of_ne s hl, hnone]
  exact ⟨hslot h.1, hslot h.2⟩

section children
variable {k : Kind} (hk : k = .deployment ∨ k = .service) {key : Key}
include hk

theorem bare_of_calls_clearPairing {name : String} (hs : s.Calm)
    (hgone : s.find? .tenant (.inSpace ns tenant) = none)
    (h : (clearPairing st ns name tenant).Calls s (.delete k key) x) : x.Bare ns tenant := by
  have hbare := bare_afterSync st hgone
  obtain ⟨b, hb⟩ := run_syncTenant_afterSync st ns tenant hs
  have hs₁ := calm_afterSync st ns tenant hs
  rcases calls_bind.1 h with h | ⟨b', s₁, hb', h⟩
  · -- The sync deletes bundles and tables only.
    have hshared := (within_syncTenant st ns tenant).calls hs.filed h k key (Or.inr rfl)
    rcases hk with rfl | rfl <;> simp [Bundle.Shared] at hshared
  cases hb.symm.trans hb'
  rcases calls_bind.1 h with h | ⟨d, s₂, hd, h⟩
  · rw [(calls_perform.1 h).2]
    exact hbare
  cases (hs₁.run_delete ..).symm.trans hd
  rcases calls_bind.1 h with h | ⟨b, s₃, -, h⟩
  · rw [(calls_perform.1 h).2]
    exact bare_remove hbare
  · exact h.elim

theorem bare_of_calls_clearAll {ps : List Pairing} (hs : s.Calm)
    (hgone : s.find? .tenant (.inSpace ns tenant) = none)
    (hps : ∀ p ∈ ps, p.content.tenantId = tenant)
    (h : (clearAll st ns ps).Calls s (.delete k key) x) : x.Bare ns tenant := by
  induction ps generalizing s with
  | nil => exact h.elim
  | cons p ps ih =>
    obtain rfl := hps p List.mem_cons_self
    have hs₁ := hs.remove .pairing (.inSpace ns p.name)
    have hgone₁ : (s.remove .pairing (.inSpace ns p.name)).find? .tenant
        (.inSpace ns p.content.tenantId) = none := by
      rw [find?_remove_of_ne s (by simp), hgone]
    rcases calls_bind.1 h with h | ⟨b, s₁, hb, h⟩
    · cases (calls_perform.1 h).1
      simp at hk
    cases (hs.run_delete ..).symm.trans hb
    rcases calls_bind.1 h with h | ⟨u, s₂, hu, h⟩
    · exact bare_of_calls_clearPairing st hk hs₁ hgone₁ h
    cases (run_clearPairing st ns p.name _ hs₁).symm.trans hu
    refine ih (calm_cleared st ns _ _ hs₁) ?_ (fun q hq => hps q (List.mem_cons_of_mem p hq)) h
    rw [agreeOff_cleared st ns p.name _ _ _ _ (by simp [Bundle.Shared, Children]), hgone₁]

theorem bare_of_calls_reconcile (hs : s.Calm) (hshape : s.Shaped)
    (hgone : s.find? .tenant (.inSpace ns tenant) = none)
    (h : (reconcile st ⟨.tenant, .inSpace ns tenant⟩).Calls s (.delete k key) x) :
    x.Bare ns tenant := by
  have hkinds : k ≠ .configMap ∧ k ≠ .ingress := by rcases hk with rfl | rfl <;> simp
  rw [reconcile_tenant_eq] at h
  rcases calls_bind.1 h with h | ⟨t, s₁, ht, h⟩
  · cases (calls_perform.1 h).1
  cases (hs.rests_get hgone).symm.trans ht
  rcases calls_bind.1 h with h | ⟨u, s₂, -, h⟩
  · rcases calls_bind.1 h with h | ⟨u, s₃, -, h⟩
    · rcases calls_bind.1 h with h | ⟨ps, s₄, hps, h⟩
      · cases (calls_perform.1 h).1
      cases (hs.run_list ..).symm.trans hps
      refine bare_of_calls_clearAll st hk hs hgone (fun p hp => ?_) h
      obtain ⟨-, hf, hl⟩ := hs.filed.of_mem_space hp
      exact (hshape hf).satisfies_iff.1 hl
    · -- Bundle and table come last, and they are no children.
      rcases calls_bind.1 h with h | ⟨o, s₄, -, h⟩
      · rcases calls_bind.1 h with h | ⟨b, s₅, -, h⟩
        · cases (calls_perform.1 h).1
          simp at hkinds
        · cases b <;> exact h.elim
      · rcases calls_bind.1 h with h | ⟨o, s₅, -, h⟩
        · rcases calls_bind.1 h with h | ⟨b, s₆, -, h⟩
          · cases (calls_perform.1 h).1
            simp at hkinds
          · cases b <;> exact h.elim
        · exact h.elim
  · exact h.elim

end children

section bare
variable {name : String}

theorem bare_of_passes_deletes {α : Type} {p : Program α}
    (hp : p.Every (Call.Discards (fun _ _ => False) fun _ _ => True)) (hs : s.Filed)
    (hbare : s.Bare ns tenant) (hx : p.Passes s x) : x.Bare ns tenant := by
  have hdrops : Drops (fun _ _ => False) (fun _ _ => True) s x :=
    (Every.passes (I := Drops _ _ s) hp (fun s' c hd hc => (rely_drops _ _).trans hd (hc.drops s'))
      hs ((rely_drops _ _).refl s) hx).1
  have hslot {k : Kind} {key : Key} (hnone : s.find? k key = none) : x.find? k key = none := by
    by_cases heq : x.find? k key = s.find? k key
    · rw [heq, hnone]
    · exact ((hdrops k key heq).resolve_left id).2
  exact ⟨hslot hbare.1, hslot hbare.2⟩

theorem discards_deleteShared {α : Type} (r : α) :
    (Bundle.deleteTenant ns tenant >>= fun _ => Routing.delete ns tenant >>= fun _ =>
      (pure r : Program α)).Every (Call.Discards (fun _ _ => False) fun _ _ => True) := by
  have hdelete (k : Kind) (key : Key) :
      (Program.delete k key).Every (Call.Discards (fun _ _ => False) fun _ _ => True) :=
    every_perform (Or.inr ⟨k, key, rfl, trivial⟩)
  refine every_bind (every_bind (hdelete ..) fun b => ?_) fun _ =>
    every_bind (every_bind (hdelete ..) fun b => ?_) fun _ => trivial
  · cases b <;> trivial
  · cases b <;> trivial

theorem passes_clearPairing_bare (hs : s.Calm)
    (hgone : s.find? .tenant (.inSpace ns tenant) = none) (hbare : s.Bare ns tenant)
    (hunrouted : s.resolved ns tenant = []) (hx : (clearPairing st ns name tenant).Passes s x) :
    x.Bare ns tenant := by
  have hset : Settled st s ns tenant := by
    refine ⟨?_, ?_⟩
    · rw [Bundle.Synced, hbare.1]
      rfl
    · rw [Routing.Current, hunrouted]
      exact hbare.2
  have hsynced := synced_of_settled st ns tenant hset
  rcases passes_clearPairing st hs hx with hx | rfl | rfl
  · rcases passes_syncTenant st hs hx with rfl | rfl | hx
    · exact hbare
    · rwa [merged, upserted_of_none hset.1]
    · rw [hsynced] at hx
      rcases passes_read_bind hs (reads_get ..) hx with rfl | ⟨t, ht, hx⟩
      · exact hbare
      cases (hs.rests_get hgone).symm.trans ht
      exact bare_of_passes_deletes (discards_deleteShared true) hs.filed hbare hx
  · exact bare_remove (bare_afterSync st hgone)
  · exact bare_cleared st hgone

theorem bare_sweepAll {ps : List Pairing} (hgone : s.find? .tenant (.inSpace ns tenant) = none)
    (hbare : s.Bare ns tenant) : (sweepAll st ns ps s).Bare ns tenant := by
  induction ps generalizing s with
  | nil => exact hbare
  | cons p ps ih =>
    have hgone₁ : (s.remove .pairing (.inSpace ns p.name)).find? .tenant (.inSpace ns tenant) =
        none := by rw [find?_remove_of_ne s (by simp), hgone]
    refine ih (s := sweep st ns s p) ?_ ?_
    · rw [sweep, agreeOff_cleared st ns p.name _ _ _ _ (by simp [Bundle.Shared, Children]), hgone₁]
    · by_cases ht : p.content.tenantId = tenant
      · subst ht
        exact bare_cleared st hgone₁
      · exact (bare_cleared_of_ne st ht).2 (bare_remove hbare)

theorem resolved_eq_nil {p : Pairing} {ps : List Pairing} {u : Store} (hs : s.Filed)
    (hsel : s.select .pairing (some ns) (Naming.tenantSelector tenant) = p :: ps)
    (hps : ∀ q ∈ ps, s.find? .microservice (.inSpace ns q.content.microserviceId) = none)
    (hfirst : u.find? .pairing (.inSpace ns p.name) = none)
    (hpairings : ∀ key (q : Pairing), u.find? .pairing key = some q → s.find? .pairing key = some q)
    (hmicro : ∀ id,
      u.find? .microservice (.inSpace ns id) = s.find? .microservice (.inSpace ns id)) :
    u.resolved ns tenant = [] := by
  rw [Store.resolved, List.filterMap_eq_nil_iff.2 fun q hq => ?_]
  · rfl
  obtain ⟨key, hf, hpick⟩ := mem_select.1 hq
  have hmem : q ∈ s.select .pairing (some ns) (Naming.tenantSelector tenant) :=
    mem_select.2 ⟨key, hpairings key q hf, hpick⟩
  rw [Store.resolve?, hmicro]
  rw [hsel] at hmem
  rcases List.mem_cons.1 hmem with rfl | hmem
  · obtain ⟨hkey, -, -⟩ := hs.of_mem_space (hsel ▸ List.mem_cons_self)
    obtain rfl : key = .inSpace ns q.name := by rw [← hkey, hs (hpairings key q hf)]
    rw [hfirst] at hf
    cases hf
  · rw [hps q hmem]
    rfl

theorem bare_of_passes_tenant (hs : s.Calm)
    (hgone : s.find? .tenant (.inSpace ns tenant) = none) (hbare : s.Bare ns tenant)
    (hps : ∀ q ∈ (s.select .pairing (some ns) (Naming.tenantSelector tenant)).tail,
      s.find? .microservice (.inSpace ns q.content.microserviceId) = none)
    (hshape : s.Shaped) (hx : (Teardown.tenant st ns tenant).Passes s x) : x.Bare ns tenant := by
  rcases passes_bind.1 hx with hx | ⟨v, s₁, hv, hx⟩
  · obtain ⟨l, r, hsel, rfl | ⟨l', p, rfl, hclear⟩⟩ := leftAfter_of_passes st hs hx
    · exact bare_sweepAll st hgone hbare
    obtain ⟨hc, ha, hswept⟩ := sweepAll_spec st ns l' hs
    have hmem : p ∈ s.select .pairing (some ns) (Naming.tenantSelector tenant) := by simp [hsel]
    obtain ⟨-, hf, hl⟩ := hs.filed.of_mem_space hmem
    rw [(hshape hf).satisfies_iff.1 hl] at hclear
    have hu := hc.remove .pairing (.inSpace ns p.name)
    have hoff {k : Kind} (key : Key) (hk : k = .tenant ∨ k = .microservice) :
        ((sweepAll st ns l' s).remove .pairing (.inSpace ns p.name)).find? k key =
          s.find? k key := by
      rw [find?_remove_of_ne _ (by rcases hk with rfl | rfl <;> simp),
        ha _ _ (by rcases hk with rfl | rfl <;> simp [Swept, Bundle.Shared, Children])]
    refine passes_clearPairing_bare st hu ((hoff _ (Or.inl rfl)).trans hgone)
      (bare_remove (bare_sweepAll st hgone hbare)) ?_ hclear
    -- The first pairing is the one that is cleared, or it was cleared before.
    obtain ⟨first, ps, hcons⟩ := List.exists_cons_of_ne_nil
      (List.append_ne_nil_of_right_ne_nil l' (List.cons_ne_nil p []))
    rw [hcons, List.cons_append] at hsel
    rw [hsel, List.tail_cons] at hps
    refine resolved_eq_nil hs.filed hsel hps ?_ (fun key q hq => ?_) fun id => hoff _ (Or.inr rfl)
    · have hfirst : first ∈ l' ++ [p] := by simp [hcons]
      by_cases hname : first.name = p.name
      · rw [hname, find?_remove_self]
      · rw [find?_remove_of_ne _ (by simp [Key.inSpace_inj, hname])]
        refine hswept first ?_ .pairing (Or.inl rfl)
        refine (List.mem_append.1 hfirst).resolve_right fun h => hname ?_
        rw [List.mem_singleton.1 h]
    · have hpairing := (within_clearPairing st ns p.name tenant).passes hu.filed hclear .pairing key
        (by simp [Bundle.Shared, Children])
      exact find?_of_passes_clears (Reconcile.clears_pairings st _) hs.filed hx (by simp) (by simp)
        (hpairing.trans hq)
  · cases (run_pairings_eq st hs _).symm.trans hv
    have hc :=
      (sweepAll_spec st ns (s.select .pairing (some ns) (Naming.tenantSelector tenant)) hs).1
    exact bare_of_passes_deletes (discards_deleteShared ()) hc.filed
      (bare_sweepAll st hgone hbare) hx

end bare

section first
variable {c : Call} {name : String}

theorem calls_discard (hs : s.Calm) (hgone : s.find? .tenant (.inSpace ns tenant) = none) :
    (discardIfTenantGone ns tenant).Calls s (.delete .configMap (Bundle.tenantKey ns tenant)) s ∧
      (discardIfTenantGone ns tenant).Calls s (.delete .ingress (Routing.tableKey ns tenant))
        (s.remove .configMap (Bundle.tenantKey ns tenant)) := by
  have hget := hs.rests_get hgone
  exact ⟨calls_bind_right hget (calls_bind_left (calls_bind_left (calls_perform.2 ⟨rfl, rfl⟩))),
    calls_bind_right hget (calls_bind_right (Bundle.run_deleteTenant ns tenant hs)
      (calls_bind_left (calls_bind_left (calls_perform.2 ⟨rfl, rfl⟩))))⟩

theorem calls_clearPairing_discard (hs : s.Calm)
    (h : (discardIfTenantGone ns tenant).Calls (synced st s ns tenant) c x) :
    (clearPairing st ns name tenant).Calls s c x :=
  calls_bind_left (calls_bind_right (hs.run_resolveForTenant ns tenant)
    (calls_bind_right (Bundle.run_sync st ns tenant hs _)
      (calls_bind_right (Routing.run_rebuild st ns tenant (calm_merged hs)) (calls_bind_left h))))

theorem agreeOff_merged (ns tenant : String) (s : Store) :
    AgreeOff (fun k key => k = .configMap ∧ key = Bundle.tenantKey ns tenant) s
      (merged s ns tenant) :=
  s.agreeOff_upserted _ _

theorem calls_clearPairing_delete (hs : s.Calm)
    (h : Routing.build ns tenant (s.resolved ns tenant) st.ingressClass = none) :
    (clearPairing st ns name tenant).Calls s (.delete .ingress (Routing.tableKey ns tenant))
      (merged s ns tenant) := by
  have hresolved : (merged s ns tenant).resolved ns tenant = s.resolved ns tenant :=
    (agreeOff_merged ns tenant s).resolved_eq (by simp) (by simp)
  refine calls_bind_left (calls_bind_right (hs.run_resolveForTenant ns tenant)
    (calls_bind_right (Bundle.run_sync st ns tenant hs _) (calls_bind_left ?_)))
  refine calls_bind_right ((calm_merged hs).run_resolveForTenant ns tenant) ?_
  rw [hresolved, h]
  exact calls_bind_left (calls_perform.2 ⟨rfl, rfl⟩)

theorem calls_reconcile_first (hs : s.Calm) (hshape : s.Shaped)
    (hgone : s.find? .tenant (.inSpace ns tenant) = none) {p : Pairing} {ps : List Pairing}
    (hsel : s.select .pairing (some ns) (Naming.tenantSelector tenant) = p :: ps)
    (h : (clearPairing st ns p.name tenant).Calls (s.remove .pairing (.inSpace ns p.name)) c x) :
    (reconcile st ⟨.tenant, .inSpace ns tenant⟩).Calls s c x := by
  obtain ⟨-, hf, hl⟩ := hs.filed.of_mem_space (hsel ▸ List.mem_cons_self)
  rw [← (hshape hf).satisfies_iff.1 hl] at h
  rw [reconcile_tenant_eq]
  refine calls_bind_right (hs.rests_get hgone) (calls_bind_left (calls_bind_left ?_))
  refine calls_bind_right (hs.run_list ..) ?_
  rw [hsel]
  exact calls_bind_right (hs.run_delete ..) (calls_bind_left h)

/-- Without pairings there is nothing to come before the bundle, which goes ahead of the table. -/
theorem inOrder_of_select_eq_nil (hs : s.Calm)
    (hgone : s.find? .tenant (.inSpace ns tenant) = none)
    (hsel : s.select .pairing (some ns) (Naming.tenantSelector tenant) = []) :
    InOrder (reconcile st ⟨.tenant, .inSpace ns tenant⟩) s ns tenant := by
  have hvacated (y : Store) : Vacated s ns tenant y := fun p hp => by
    rw [hsel] at hp
    cases hp
  refine ⟨fun x _ _ => hvacated x, fun x hx _ => ⟨hvacated x, ?_⟩⟩
  rw [reconcile_tenant_eq] at hx
  rcases calls_bind.1 hx with hx | ⟨t, s₁, ht, hx⟩
  · cases (calls_perform.1 hx).1
  cases (hs.rests_get hgone).symm.trans ht
  rcases calls_bind.1 hx with hx | ⟨u, s₂, -, hx⟩
  · rcases calls_bind.1 hx with hx | ⟨u, s₃, hu, hx⟩
    · rcases calls_bind.1 hx with hx | ⟨ps, s₄, hps, hx⟩
      · cases (calls_perform.1 hx).1
      cases (hs.run_list ..).symm.trans hps
      rw [hsel] at hx
      exact hx.elim
    · cases (rests_pairings st ns hs hsel).symm.trans hu
      rcases calls_bind.1 hx with hx | ⟨o, s₄, ho, hx⟩
      · rcases calls_bind.1 hx with hx | ⟨b, s₅, -, hx⟩
        · cases (calls_perform.1 hx).1
        · cases b <;> exact hx.elim
      · cases (Bundle.run_deleteTenant ns tenant hs).symm.trans ho
        rcases calls_bind.1 hx with hx | ⟨o, s₅, -, hx⟩
        · rcases calls_bind.1 hx with hx | ⟨b, s₆, -, hx⟩
          · rw [(calls_perform.1 hx).2, find?_remove_self]
          · cases b <;> exact hx.elim
        · exact hx.elim
  · exact hx.elim

theorem mem_select_remove (hs : s.Filed) {selector : Labels} {p q : Pairing} {ps : List Pairing}
    (hsel : s.select .pairing (some ns) selector = p :: ps) (hq : q ∈ ps) :
    q ∈ (s.remove .pairing (.inSpace ns p.name)).select .pairing (some ns) selector := by
  have hnames := hs.nodup_names .pairing ns selector
  rw [hsel, List.map_cons, List.nodup_cons] at hnames
  have hne : q.name ≠ p.name := fun he => hnames.1 (List.mem_map.2 ⟨q, hq, he⟩)
  have hmem : q ∈ s.select .pairing (some ns) selector := hsel ▸ List.mem_cons_of_mem p hq
  obtain ⟨key, hf, hpick⟩ := mem_select.1 hmem
  refine mem_select.2 ⟨key, ?_, hpick⟩
  rw [find?_remove_of_ne, hf]
  rw [← hs hf, (hs.of_mem_space hmem).1]
  simp [Key.inSpace_inj, hne]

theorem isSome_find?_merged (h : (s.find? .configMap (Bundle.tenantKey ns tenant)).isSome) :
    ((merged s ns tenant).find? .configMap (Bundle.tenantKey ns tenant)).isSome := by
  rw [merged, find?_upserted]
  split
  · exact h
  · rfl

theorem build_eq_none_of_synced
    (h : (synced st s ns tenant).find? .ingress (Routing.tableKey ns tenant) = none) :
    Routing.build ns tenant (s.resolved ns tenant) st.ingressClass = none := by
  have hcurrent := (settled_synced st ns tenant s).2
  have hresolved : (synced st s ns tenant).resolved ns tenant = s.resolved ns tenant :=
    (agreeOff_synced st ns tenant s).resolved_eq (by simp [Bundle.Shared]) (by simp [Bundle.Shared])
  rw [Routing.Current, hresolved, h] at hcurrent
  split at hcurrent
  · assumption
  · cases hcurrent

theorem find?_microservice_of_build_eq_none {cls : Option String} {q : Pairing}
    (h : Routing.build ns tenant (s.resolved ns tenant) cls = none)
    (hq : q ∈ s.select .pairing (some ns) (Naming.tenantSelector tenant)) :
    s.find? .microservice (.inSpace ns q.content.microserviceId) = none := by
  refine Option.eq_none_iff_forall_ne_some.2 fun m hm => ?_
  have harea : m.content.functionalArea ∈ s.areas ns tenant := mem_areas.2 ⟨q, hq, m, hm, rfl⟩
  rw [Store.areas, Routing.build_eq_none_iff.1 h] at harea
  cases harea

theorem bare_of_inOrder (hs : s.Calm) (hshape : s.Shaped)
    (hgone : s.find? .tenant (.inSpace ns tenant) = none) {p : Pairing} {ps : List Pairing}
    (hsel : s.select .pairing (some ns) (Naming.tenantSelector tenant) = p :: ps)
    (hchild : (s.find? .deployment (.inSpace ns p.name)).isSome)
    (h : InOrder (reconcile st ⟨.tenant, .inSpace ns tenant⟩) s ns tenant) :
    s.Bare ns tenant ∧
      ∀ q ∈ ps, s.find? .microservice (.inSpace ns q.content.microserviceId) = none := by
  have hmem : p ∈ s.select .pairing (some ns) (Naming.tenantSelector tenant) := by simp [hsel]
  have hu := hs.remove .pairing (.inSpace ns p.name)
  have hfirst {c : Call} {x : Store} :=
    calls_reconcile_first st (c := c) (x := x) hs hshape hgone hsel
  have hoff {k : Kind} {key : Key} (hk : k ≠ .pairing) :
      (s.remove .pairing (.inSpace ns p.name)).find? k key = s.find? k key :=
    find?_remove_of_ne s (by simp [hk])
  have hrest : ∀ q ∈ ps, q ∈ (s.remove .pairing (.inSpace ns p.name)).select .pairing (some ns)
      (Naming.tenantSelector tenant) := fun q => mem_select_remove hs.filed hsel
  generalize s.remove .pairing (.inSpace ns p.name) = u at hu hfirst hoff hrest
  -- Wherever the first clearing has come to, the pairing has its Deployment until it is deleted.
  have hthere {y : Store} (hy : AgreeOff (Bundle.Shared ns tenant) u y) :
      ¬Vacated s ns tenant y := by
    intro hv
    rw [← hoff (by simp), ← hy _ _ (by simp [Bundle.Shared]), (hv p hmem).1] at hchild
    cases hchild
  have hsynced := agreeOff_synced st ns tenant u
  have hgone₁ : (synced st u ns tenant).find? .tenant (.inSpace ns tenant) = none := by
    rw [find?_tenant_synced, hoff (by simp), hgone]
  obtain ⟨hcall₁, hcall₂⟩ := calls_discard (calm_synced st ns tenant hu) hgone₁
  have hbundle : s.find? .configMap (Bundle.tenantKey ns tenant) = none := by
    rw [← Option.not_isSome_iff_eq_none]
    intro hsome
    rw [← hoff (by simp)] at hsome
    refine hthere hsynced (h.bundle _ (hfirst (calls_clearPairing_discard st hu hcall₁)) ?_)
    rw [synced_eq, Routing.agreeOff_rebuilt st ns tenant _ _ _ (by simp)]
    exact isSome_find?_merged hsome
  have htable₁ : (synced st u ns tenant).find? .ingress (Routing.tableKey ns tenant) = none := by
    rw [← Option.not_isSome_iff_eq_none]
    intro hsome
    have hremoved := hsynced.trans
      (((synced st u ns tenant).agreeOff_remove .configMap (Bundle.tenantKey ns tenant)).mono
        fun _ _ => Or.inl)
    refine hthere hremoved (h.table _ (hfirst (calls_clearPairing_discard st hu hcall₂)) ?_).1
    rwa [find?_remove_of_ne _ (by simp)]
  have hbuild := build_eq_none_of_synced st htable₁
  refine ⟨⟨hbundle, ?_⟩, fun q hq => ?_⟩
  · rw [← Option.not_isSome_iff_eq_none]
    intro hsome
    have hmerged := agreeOff_merged ns tenant u
    refine hthere (hmerged.mono fun _ _ => Or.inl)
      (h.table _ (hfirst (calls_clearPairing_delete st hu hbuild)) ?_).1
    rwa [hmerged _ _ (by simp), hoff (by simp)]
  · rw [← hoff (by simp)]
    exact find?_microservice_of_build_eq_none hbuild (hrest q hq)

end first

/-- A tenant is gone and its pairings have their children when its reconcile runs. Each Deployment
and each Service is deleted when bundle and routing table are gone already. Neither of the two is
taken away before the children are, and the bundle before the table, if and only if there are no
pairings, or there is neither bundle nor table and no pairing but the first has a microservice, so
that no table is made on the way. -/
theorem inOrder_iff (hs : s.Reached) (hf : s.faults = []) (hshape : s.Shaped)
    (hgone : s.find? .tenant (.inSpace ns tenant) = none)
    (hchildren : ∀ p ∈ s.select .pairing (some ns) (Naming.tenantSelector tenant),
      (s.find? .deployment (.inSpace ns p.name)).isSome ∧
        (s.find? .service (.inSpace ns p.name)).isSome) :
    (∀ k key x, k = .deployment ∨ k = .service →
      (reconcile st ⟨.tenant, .inSpace ns tenant⟩).Calls s (.delete k key) x → x.Bare ns tenant) ∧
    (InOrder (reconcile st ⟨.tenant, .inSpace ns tenant⟩) s ns tenant ↔
      s.select .pairing (some ns) (Naming.tenantSelector tenant) = [] ∨
        s.Bare ns tenant ∧
          ∀ p ∈ (s.select .pairing (some ns) (Naming.tenantSelector tenant)).tail,
            s.find? .microservice (.inSpace ns p.content.microserviceId) = none) := by
  have hc : s.Calm := ⟨hs.filed, hf⟩
  refine ⟨fun k key x hk h => bare_of_calls_reconcile st hk hc hshape hgone h, fun h => ?_, ?_⟩
  · cases hsel : s.select .pairing (some ns) (Naming.tenantSelector tenant) with
    | nil => exact Or.inl rfl
    | cons p ps =>
      have hchild := (hchildren p (by simp [hsel])).1
      exact Or.inr (bare_of_inOrder st hc hshape hgone hsel hchild h)
  · rintro (hnone | ⟨hbare, hps⟩)
    · exact inOrder_of_select_eq_nil st hc hgone hnone
    · refine inOrder_of_bare fun x hx => ?_
      rw [reconcile_tenant_eq] at hx
      rcases passes_read_bind hc (reads_get ..) hx with rfl | ⟨t, ht, hx⟩
      · exact hbare
      cases (hc.rests_get hgone).symm.trans ht
      exact bare_of_passes_tenant st hc hgone hbare hps hshape
        (passes_bind_done (fun _ => ⟨_, rfl⟩) hx)

section forsaken

def furnished : Store :=
  ((reconcile {} ⟨.pairing, .inSpace "dc1" (Naming.pairing "a" "b-c")⟩).run Reconcile.equipped).2

def forsaken : Store := (furnished.perform (.delete .tenant (.inSpace "dc1" "a"))).2

theorem reached_forsaken : forsaken.Reached :=
  .call _ (((Pool.reached_staffed.run _).run _).run _)

theorem shaped_forsaken : forsaken.Shaped := by
  have hfurnished : furnished.Rooted := Reconcile.rooted_of_reaches {}
    (rooted_of_declared ⟨Pool.reached_staffed.filed, rfl⟩ Reconcile.declared_staffed)
    (Reconcile.reaches_equipped.tail
      ⟨⟨.pairing, .inSpace "dc1" (Naming.pairing "a" "b-c")⟩, .converged, rfl⟩)
  exact hfurnished.shaped

theorem select_forsaken :
    forsaken.select .pairing (some "dc1") (Naming.tenantSelector "a") =
      [(Pairing.forPair "dc1" "a" "b-c" .empty).withVersion (some "6"),
        (Pairing.forPair "dc1" "a" "c" .empty).withVersion (some "7")] := rfl

theorem children_forsaken : ∀ p ∈ forsaken.select .pairing (some "dc1") (Naming.tenantSelector "a"),
    (forsaken.find? .deployment (.inSpace "dc1" p.name)).isSome ∧
      (forsaken.find? .service (.inSpace "dc1" p.name)).isSome := by
  simp only [select_forsaken, List.forall_mem_cons]
  exact ⟨⟨rfl, rfl⟩, ⟨rfl, rfl⟩, by simp⟩

/-- No Deployment and no Service is deleted while the bundle or the table is there, so the two are
not taken away in order; where neither is there and no microservice, nothing is out of order. -/
theorem inOrder_stranded :
    ¬InOrder (reconcile {} ⟨.tenant, .inSpace "dc1" "a"⟩) forsaken "dc1" "a" ∧
      InOrder (reconcile {} ⟨.tenant, .inSpace "dc1" "a"⟩) stranded "dc1" "a" := by
  have hchildren : ∀ p ∈ stranded.select .pairing (some "dc1") (Naming.tenantSelector "a"),
      (stranded.find? .deployment (.inSpace "dc1" p.name)).isSome ∧
        (stranded.find? .service (.inSpace "dc1" p.name)).isSome := by
    intro p hp
    rw [eq_of_find?_stranded (reached_stranded.filed.of_mem_space hp).2.1]
    exact ⟨rfl, rfl⟩
  constructor
  · intro h
    have hiff := (inOrder_iff {} reached_forsaken rfl shaped_forsaken rfl children_forsaken).2
    rcases hiff.1 h with hnone | ⟨hbare, -⟩
    · cases hnone
    · cases hbare.1
  · have hiff := (inOrder_iff {} reached_stranded rfl shaped_stranded rfl hchildren).2
    refine hiff.2 (Or.inr ⟨⟨rfl, rfl⟩, fun p hp => ?_⟩)
    cases hp

/-- Bundle and table of the tenant are taken away while its pairing has children. -/
theorem not_forall_inOrder :
    ¬∀ (st : Settings) (s : Store) (ns tenant : String), s.Reached → s.faults = [] → s.Shaped →
      s.find? .tenant (.inSpace ns tenant) = none →
      (∀ p ∈ s.select .pairing (some ns) (Naming.tenantSelector tenant),
        (s.find? .deployment (.inSpace ns p.name)).isSome ∧
          (s.find? .service (.inSpace ns p.name)).isSome) →
      InOrder (reconcile st ⟨.tenant, .inSpace ns tenant⟩) s ns tenant := by
  intro h
  have horder := h {} forsaken "dc1" "a" reached_forsaken rfl shaped_forsaken rfl children_forsaken
  have hbare := (bare_of_inOrder {} ⟨reached_forsaken.filed, rfl⟩ shaped_forsaken rfl
    select_forsaken rfl horder).1
  cases hbare.1

end forsaken

end Teardown
end TenantOperator
