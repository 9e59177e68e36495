import TenantOperator.Proofs.Interleaving.Publish
import TenantOperator.Proofs.Interleaving.Steady

/-! Reconciles and clean bundles. The reconcile of a pairing keeps the bundle of a living tenant
clean while a microservice changes, but for areas that it may have read before the change; the
reconcile of the microservice makes the bundle clean. -/
namespace TenantOperator
open Program Store

namespace Cleaning

variable {R T : Store → Store → Prop} (st : Settings) {ns tenant m : String} {X : String → Prop}
  {s : Store}

theorem acts_syncTenant (h : Around R (Quiet ns tenant m X) T)
    (hT : ∀ s s', T s s' → Kept ns tenant m X s s')
    (hm : ∀ s', T s s' → ∀ key, s'.find? .microservice key = s.find? .microservice key)
    (hs : s.Sound) (halive : (s.find? .tenant (.inSpace ns tenant)).isSome) (u : String) :
    (Teardown.syncTenant st ns u).Acts R (Quiet ns tenant m X)
      (fun _ s' => u = tenant ∨ Clean ns tenant X s → Clean ns tenant X s') s := by
  by_cases hu : u = tenant
  · subst hu
    refine (Teardown.acts_syncTenant st h hs (fun s' hc id => hm s' hc _) (fun s' hc => ?_)
      (fun s s' ha => ?_) (Q := Clean ns u X) (fun s₁ s₂ hc => (hT _ _ hc).clean)
      fun s' hc => ?_).imp fun _ _ hq _ => hq.2
    · rwa [(hT _ _ hc).tenants]
    · exact .of_agreeOff ha (by simp) (by simp) (by simp) (by simp)
    · -- What was in use when the sync began still is, or it is excused.
      have hnew (area : String) (ha : (Bundle.entries (s'.upserted (Bundle.tenantKey ns u)
          (Bundle.mergeInto (Bundle.candidates (s.resolved ns u)))) ns u).contains area) :
          area ∈ s'.areas ns u ∨ X area :=
        (hT _ _ hc).areas (Bundle.contains_entries_mergeInto.1 ha).2
      have hquiet : Quiet ns u m X s' (s'.upserted (Bundle.tenantKey ns u)
          (Bundle.mergeInto (Bundle.candidates (s.resolved ns u)))) :=
        .of_bundle s' fun area ha => Or.inr (hnew area ha)
      exact ⟨hquiet, fun area ha => (hnew area ha).elim hquiet.areas Or.inr⟩
  · have hwaits := (Teardown.within_syncTenant st ns u).waits (R := R) hs
      (G := Quiet ns tenant m X) fun s s' ha => by
        refine .of_agreeOff ha (by simp [Bundle.Shared]) (by simp [Bundle.Shared])
          (by simp [Bundle.Shared]) ?_
        simp only [Bundle.Shared, Bundle.tenantKey_inj, true_and, reduceCtorEq, false_and, or_false]
        exact fun he => hu he.symm
    exact ((hwaits.around h).imp fun _ s' hq hc =>
      (hT _ _ hq.2).clean (hc.resolve_left hu)).acts h.rely

theorem waits_delete_child (h : Around R (Quiet ns tenant m X) T)
    (hT : ∀ s s', T s s' → Kept ns tenant m X s s') (hs : s.Sound) {k : Kind} (key : Key)
    (hk : k = .deployment ∨ k = .service) :
    (Program.delete k key).Waits R (Quiet ns tenant m X)
      (fun _ s' => Clean ns tenant X s → Clean ns tenant X s') s := by
  have hwaits := (within_delete k key).waits (R := R) hs (G := Quiet ns tenant m X)
    fun s s' ha => by
      refine .of_agreeOff ha ?_ ?_ ?_ ?_ <;> rcases hk with rfl | rfl <;> simp
  exact (hwaits.around h).imp fun _ s' hq => (hT _ _ hq.2).clean

theorem acts_clearPairing (h : Around R (Quiet ns tenant m X) T)
    (hT : ∀ s s', T s s' → Kept ns tenant m X s s')
    (hm : ∀ s', T s s' → ∀ key, s'.find? .microservice key = s.find? .microservice key)
    (hs : s.Sound) (halive : (s.find? .tenant (.inSpace ns tenant)).isSome) (name u : String) :
    (Teardown.clearPairing st ns name u).Acts R (Quiet ns tenant m X)
      (fun _ s' => u = tenant ∨ Clean ns tenant X s → Clean ns tenant X s') s := by
  refine acts_bind h.rely (acts_syncTenant st h hT hm hs halive u) fun _ s₁ hc₁ hq₁ => ?_
  have hs₁ := hc₁.leads.sound hs
  refine waits_bind (waits_delete_child h hT hs₁ _ (Or.inl rfl)) fun _ s₂ hc₂ hq₂ => ?_
  refine waits_bind (waits_delete_child h hT (hc₂.leads.sound hs₁) _ (Or.inr rfl))
    fun _ s₃ hc₃ hq₃ => ?_
  exact waits_pure fun hc => hq₃ (hq₂ (hq₁ hc))

theorem around_kept : Around (Kept ns tenant m X) (Quiet ns tenant m X) (Kept ns tenant m X) where
  rely := rely_kept
  total := rely_kept
  others _ _ h := h
  own _ _ h := h.toKept
  faults := rely_quiet.faults

theorem acts_pairing_live (hs : s.Sound) (hshape : s.Shaped)
    (halive : (s.find? .tenant (.inSpace ns tenant)).isSome) {key : Key} (hns : key.ns = some ns)
    {p : Pairing} (hp : s.find? .pairing key = some p) :
    (Reconcile.pairing st ns key).Acts (Kept ns tenant m X) (Quiet ns tenant m X)
      (fun _ _ => True) s := by
  by_cases ht : p.content.tenantId = tenant
  · subst ht
    refine (Reconcile.acts_pairing_live st around_kept hs hp (fun s' hc => ?_) (fun s s' ha => ?_)
      (Q := fun _ => True) (fun _ _ _ h => h) fun s₁ r s' hc hc' hr => ⟨?_, trivial⟩).imp
        fun _ _ _ => trivial
    · rwa [hc.tenants]
    · exact .of_agreeOff ha (by simp) (by simp) (by simp) (by simp)
    · refine .of_bundle s' fun area ha => ?_
      rcases Bundle.contains_entries_setEntry.1 ha with rfl | hold
      · right
        by_cases hx : X r.content.functionalArea
        · exact Or.inr hx
        · -- The area that was read cannot have gone, and with its microservice the pairing stays.
          left
          have hr' := hc'.find?_of_notExcused hr hx
          have hp' := (hc.trans hc'.toSteady).pairings key p hp (by rw [hr']; rfl)
          have hl : p.metadata.satisfies (Naming.tenantSelector p.content.tenantId) = true :=
            (hshape hp).satisfies_iff.2 rfl
          exact mem_areas.2 ⟨p, mem_select_of_find? hp' hns hl, r, hr', rfl⟩
      · exact Or.inl hold
  · -- A pairing of another tenant has nothing to do with the bundle.
    rw [Reconcile.pairing_eq]
    refine acts_bind rely_kept (Q := fun q _ => q = some p) (acts_get (rely_quiet.faults s) hp) ?_
    rintro _ s₁ hc₁ rfl
    refine (Reconcile.within_live st ns p).waits (hc₁.leads.sound hs) fun s s' ha => ?_
    refine .of_agreeOff ha ?_ ?_ ?_ ?_ <;>
      simp [Workload.Child, Bundle.Shared, Bundle.tenantKey_inj, Ne.symm ht]

theorem acts_pairing_gone (hs : s.Sound)
    (halive : (s.find? .tenant (.inSpace ns tenant)).isSome) {key : Key}
    (hp : s.find? .pairing key = none) (hm : s.find? .microservice (.inSpace ns m) = none) :
    (Reconcile.pairing st ns key).Acts (Kept ns tenant m X) (Quiet ns tenant m X)
      (fun _ _ => True) s := by
  have hclear (u : String) {s₁ : Store} (hc : Kept ns tenant m X s s₁) (hs₁ : s₁.Sound) :
      (Teardown.clearPairing st ns key.name u).Waits (Kept ns tenant m X) (Quiet ns tenant m X)
        (fun _ _ => True) s₁ := by
    refine waits_of_acts rely_kept fun s₂ hl₂ hc₂ => ?_
    have hc₂ := rely_kept.trans hc hc₂
    refine (acts_clearPairing st around_kept (fun _ _ h => h) (fun s' h id => ?_)
      (hl₂.sound hs₁) ?_ key.name u).imp fun _ _ _ => trivial
    · by_cases hid : id = .inSpace ns m
      · rw [hid, hc₂.gone hm, h.gone (hc₂.gone hm)]
      · exact h.others id hid
    · rwa [hc₂.tenants]
  refine acts_bind rely_kept (Q := fun r _ => r = none) (acts_get (rely_quiet.faults s) hp) ?_
  rintro _ s₁ hc₁ rfl
  refine waits_bind (Q := fun _ _ => True) ?_ fun _ _ _ _ => waits_pure trivial
  have hread := (within_of_reads (W := fun _ _ => False)
    (reads_pairingTenant (.inSpace ns key.name))).waits (R := Kept ns tenant m X)
    (hc₁.leads.sound hs) (G := Quiet ns tenant m X) fun s s' ha => .of_agreeOff ha (by simp)
      (by simp) (by simp) (by simp)
  refine waits_bind hread fun u s₂ hc₂ _ => ?_
  -- The labels of the children may tell of any tenant.
  cases u with
  | none => exact waits_pure trivial
  | some u =>
    have hc := hc₁.trans hc₂
    exact hclear u (around_kept.course hc) (hc.leads.sound hs)

theorem acts_pairing (hs : s.Sound) (hshape : s.Shaped)
    (halive : (s.find? .tenant (.inSpace ns tenant)).isSome) {key : Key} (hns : key.ns = some ns)
    (hgone : s.find? .pairing key = none → s.find? .microservice (.inSpace ns m) = none) :
    (Reconcile.pairing st ns key).Acts (Kept ns tenant m X) (Quiet ns tenant m X)
      (fun _ _ => True) s := by
  cases hp : s.find? .pairing key with
  | none => exact acts_pairing_gone st hs halive hp (hgone hp)
  | some p => exact acts_pairing_live st hs hshape halive hns hp

theorem around_quiet :
    Around (Quiet ns tenant m X) (Quiet ns tenant m X) (Quiet ns tenant m X) where
  rely := rely_quiet
  total := rely_quiet
  others _ _ h := h
  own _ _ h := h
  faults := rely_quiet.faults

theorem around_mild : Around (Quiet ns tenant m X) (Mild ns tenant m X) (Mild ns tenant m X) where
  rely := rely_quiet
  total := rely_mild
  others _ _ h := h.toMild
  own _ _ h := h
  faults := rely_mild.faults

/-- What leaves the bundle clean when it acts leaves it clean when it waits. -/
theorem waits_of_acts_clean {α : Type} {p : Program α} {u : String} (hs : s.Sound)
    (halive : (s.find? .tenant (.inSpace ns tenant)).isSome)
    (h : ∀ s' : Store, s'.Sound → (s'.find? .tenant (.inSpace ns tenant)).isSome →
      p.Acts (Quiet ns tenant m X) (Quiet ns tenant m X)
        (fun _ s'' => u = tenant ∨ Clean ns tenant X s' → Clean ns tenant X s'') s') :
    p.Waits (Quiet ns tenant m X) (Quiet ns tenant m X)
      (fun _ s' => u = tenant ∨ Clean ns tenant X s → Clean ns tenant X s') s :=
  waits_of_acts rely_quiet fun s₁ hl₁ hc₁ =>
    (h s₁ (hl₁.sound hs) (by rwa [hc₁.tenants])).imp fun _ _ hq hc => hq (hc.imp id hc₁.clean)

theorem waits_clearPairing (hs : s.Sound) (halive : (s.find? .tenant (.inSpace ns tenant)).isSome)
    (name u : String) :
    (Teardown.clearPairing st ns name u).Waits (Quiet ns tenant m X) (Quiet ns tenant m X)
      (fun _ s' => Quiet ns tenant m X s s' ∧
        (u = tenant ∨ Clean ns tenant X s → Clean ns tenant X s')) s := by
  have hwaits := waits_of_acts_clean (m := m) (X := X) hs halive fun s₁ hs₁ halive₁ =>
    acts_clearPairing st around_quiet (fun _ _ h => h.toKept) (fun _ h => h.sameMicroservices) hs₁
      halive₁ name u
  exact (hwaits.around around_quiet).imp fun _ s' hq => ⟨hq.2, hq.1⟩

theorem mild_remove_pairing (hm : s.find? .microservice (.inSpace ns m) = none) {key : Key}
    (hp : ∀ p, s.find? .pairing key = some p → p.content.microserviceId = m) :
    Mild ns tenant m X s (s.remove .pairing key) := by
  have hsame {k : Kind} (hk : k ≠ .pairing) (key' : Key) :
      (s.remove .pairing key).find? k key' = s.find? k key' := find?_remove_of_ne s (by simp [hk])
  have hsteady : Steady ns m X s (s.remove .pairing key) := by
    refine .of_microservice (fun hs key' p h => ?_) (hsame (by simp)) (hsame (by simp))
      fun key' p h hmid => ?_
    · by_cases hk : key' = key
      · rw [hk, find?_remove_self] at h
        cases h
      · rw [find?_remove_of_ne s (by simp [hk])] at h
        exact hs h
    · by_cases hk : key' = key
      · rw [hsame (by simp), hp p (hk ▸ h), hm] at hmid
        cases hmid
      · rwa [find?_remove_of_ne s (by simp [hk])]
  exact ⟨hsteady.kept (hsame (by simp) _), hsame (by simp)⟩

theorem waits_clearAll (ps : List Pairing) (hs : s.Sound)
    (halive : (s.find? .tenant (.inSpace ns tenant)).isSome)
    (hm : s.find? .microservice (.inSpace ns m) = none)
    (hps : ∀ q ∈ ps, ∀ p, s.find? .pairing (.inSpace ns q.name) = some p →
      p.content.microserviceId = m) :
    (Teardown.clearAll st ns ps).Waits (Quiet ns tenant m X) (Mild ns tenant m X)
      (fun _ s' => (∃ q ∈ ps, q.content.tenantId = tenant) ∨ Clean ns tenant X s →
        Clean ns tenant X s') s := by
  induction ps generalizing s with
  | nil => exact waits_pure fun h => h.elim (by simp) id
  | cons q ps ih =>
    rw [Teardown.clearAll]
    -- The deletion removes a pairing of the microservice that is gone.
    refine waits_bind (Q := fun _ s' => ∀ q' ∈ ps, ∀ p,
      s'.find? .pairing (.inSpace ns q'.name) = some p → p.content.microserviceId = m) ?_ ?_
    · refine waits_of_acts rely_quiet fun s₁ _ hc₁ => ?_
      have hps₁ : ∀ q' ∈ q :: ps, ∀ p, s₁.find? .pairing (.inSpace ns q'.name) = some p →
          p.content.microserviceId = m :=
        fun q' hq' p hp => hps q' hq' p (by rwa [← hc₁.samePairings])
      refine acts_perform (rely_mild.faults s₁) (mild_remove_pairing ?_ (hps₁ q (by simp)))
        fun _ _ q' hq' p hp => ?_
      · rwa [hc₁.sameMicroservices]
      · have hold : s₁.find? .pairing (.inSpace ns q'.name) = some p := by
          by_cases hk : Key.inSpace ns q'.name = Key.inSpace ns q.name
          · change (s₁.remove .pairing (.inSpace ns q.name)).find? .pairing _ = some p at hp
            rw [hk, find?_remove_self] at hp
            cases hp
          · change (s₁.remove .pairing (.inSpace ns q.name)).find? .pairing _ = some p at hp
            rwa [find?_remove_of_ne s₁ (by simp [hk])] at hp
        exact hps₁ q' (by simp [hq']) p hold
    · intro _ s₂ hc₂ hps₂
      have hs₂ := hc₂.leads.sound hs
      have hmild₂ := around_mild.course hc₂
      have halive₂ : (s₂.find? .tenant (.inSpace ns tenant)).isSome := by
        rwa [hmild₂.tenants]
      have hclear := waits_clearPairing st (m := m) (X := X) hs₂ halive₂ q.name q.content.tenantId
      refine waits_bind (hclear.mono (fun _ _ h => h) (fun _ _ h => h.toMild) fun _ _ h => h) ?_
      rintro _ s₃ hc₃ ⟨hquiet, hclean₃⟩
      refine (ih (hc₃.leads.sound hs₂) ?_ ?_ fun q' hq' p hp => ?_).imp
        fun _ s' hq h => hq ?_
      · rwa [hquiet.tenants]
      · rwa [hquiet.sameMicroservices, hmild₂.sameMicroservices]
      · rw [hquiet.samePairings] at hp
        exact hps₂ q' hq' p hp
      · rcases h with ⟨q', hq', ht⟩ | hc
        · rcases List.mem_cons.1 hq' with rfl | hq'
          · exact Or.inr (hclean₃ (Or.inl ht))
          · exact Or.inl ⟨q', hq', ht⟩
        · exact Or.inr (hclean₃ (Or.inr (hmild₂.clean hc)))

theorem mild_create_pairing (s : Store) (ns' t id : String) (c : Configuration) :
    Mild ns tenant m X s (s.answer (.create .pairing (Pairing.forPair ns' t id c))).2 := by
  have hsame {k : Kind} (hk : k ≠ .pairing) (key : Key) :
      (s.answer (.create .pairing (Pairing.forPair ns' t id c))).2.find? k key = s.find? k key :=
    s.find?_answer_of_not_writes fun hw => hk (Call.writes_create.1 hw).1.symm
  have hsteady : Steady ns m X s
      (s.answer (.create .pairing (Pairing.forPair ns' t id c))).2 := by
    refine .of_microservice (fun hs key q h => ?_) (hsame (by simp)) (hsame (by simp))
      fun key q hq _ => find?_create_of_some _ hq
    rcases eq_of_find?_create h with hold | rfl
    · exact hs hold
    · exact Pairing.shaped_forPair ..
  exact ⟨hsteady.kept (hsame (by simp) _), hsame (by simp)⟩

/-- Calls of the pairing matrix: it reads, and it makes pairings of ids. -/
def MatrixCall (c : Call) : Prop :=
  c.Reads ∨ ∃ ns t id cfg, c = .create .pairing (Pairing.forPair ns t id cfg)

theorem every_pairAll (ns' t : String) (ms : List Microservice) :
    (Matrix.pairAll ns' t ms).Every MatrixCall := by
  induction ms with
  | nil => trivial
  | cons r ms ih =>
    have hget : (getRequired .microserviceTemplate
        (.clusterWide r.content.configurationId)).Every MatrixCall := by
      refine every_bind (every_perform (Or.inl (Call.reads_get _ _))) fun t => ?_
      cases t <;> trivial
    refine every_bind (every_bind hget fun _ => trivial) fun c => ?_
    refine every_bind (every_ensureCreated (Or.inr ⟨ns', t, r.name, c, rfl⟩)) fun _ => ?_
    exact every_bind ih fun _ => trivial

theorem every_resolveTenant (t : Tenant) : (Matrix.resolveTenant t).Every MatrixCall := by
  unfold Matrix.resolveTenant
  split
  · trivial
  · refine every_bind (every_perform (Or.inl (Call.reads_list _ _ _))) fun ms => ?_
    refine every_bind (every_perform (Or.inl (Call.reads_list _ _ _))) fun ps => ?_
    exact every_pairAll _ _ _

theorem within_resolveTenant (t : Tenant) :
    (Matrix.resolveTenant t).Within fun k _ => k = .pairing := by
  refine (every_resolveTenant t).mono fun c hc k key hw => ?_
  rcases hc with hread | ⟨ns', t', id, cfg, rfl⟩
  · exact absurd hw (hread k key)
  · exact (Call.writes_create.1 hw).1.symm

theorem mild_matrixCall (s : Store) {c : Call} (hc : MatrixCall c) :
    Mild ns tenant m X s (s.perform c).2 := by
  rcases hc with hread | ⟨ns', t, id, cfg, rfl⟩
  · have h : AgreeOff (fun _ _ => False) s (s.perform c).2 := fun k key _ =>
      s.find?_perform_of_not_writes (hread k key)
    exact (Quiet.of_agreeOff h (by simp) (by simp) (by simp) (by simp)).toMild
  · rcases s.perform_eq (.create .pairing (Pairing.forPair ns' t id cfg)) with he | ⟨p, l, he⟩
    · rw [he]
      exact mild_create_pairing s ns' t id cfg
    · rw [he]
      exact rely_mild.faults s l

/-- All listed tenants are paired and synced, and if one of them is the tenant, its bundle is clean.
-/
theorem waits_tenants (ts : List Tenant) (hs : s.Sound)
    (halive : (s.find? .tenant (.inSpace ns tenant)).isSome) :
    (Reconcile.tenants st ns ts).Waits (Quiet ns tenant m X) (Mild ns tenant m X)
      (fun _ s' => (∃ t ∈ ts, t.name = tenant) ∨ Clean ns tenant X s → Clean ns tenant X s') s := by
  induction ts generalizing s with
  | nil => exact waits_pure fun h => h.elim (by simp) id
  | cons t ts ih =>
    rw [Reconcile.tenants]
    refine waits_bind ((every_resolveTenant t).waits hs fun s c hc => mild_matrixCall s hc)
      fun _ s₁ hc₁ _ => ?_
    have hs₁ := hc₁.leads.sound hs
    have hmild₁ := around_mild.course hc₁
    have halive₁ : (s₁.find? .tenant (.inSpace ns tenant)).isSome := by rwa [hmild₁.tenants]
    have hsync := waits_of_acts_clean (m := m) (X := X) hs₁ halive₁ fun s₂ hs₂ halive₂ =>
      acts_syncTenant st around_quiet (fun _ _ h => h.toKept) (fun _ h => h.sameMicroservices) hs₂
        halive₂ t.name
    refine waits_bind (hsync.mono (fun _ _ h => h) (fun _ _ h => h.toMild) fun _ _ h => h)
      fun _ s₂ hc₂ hq₂ => ?_
    have hmild₂ := around_mild.course hc₂
    refine (ih (hc₂.leads.sound hs₁) (by rwa [hmild₂.tenants])).imp fun _ s' hq h => hq ?_
    rcases h with ⟨t', ht', hname⟩ | hc
    · rcases List.mem_cons.1 ht' with rfl | ht'
      · exact Or.inr (hq₂ (Or.inl hname))
      · exact Or.inl ⟨t', ht', hname⟩
    · exact Or.inr (hq₂ (Or.inr (hmild₁.clean hc)))

/-- The reconcile of the microservice leaves the bundle clean, whether it finds the microservice or
its pairing with the tenant. -/
theorem acts_microservice (hs : s.Sound) (hshape : s.Shaped)
    (halive : (s.find? .tenant (.inSpace ns tenant)).isSome) {key : Key} {p : Pairing}
    (hns : key.ns = some ns) (hp : s.find? .pairing key = some p)
    (ht : p.content.tenantId = tenant) (hid : p.content.microserviceId = m) :
    (Reconcile.microservice st ns (.inSpace ns m)).Acts (Quiet ns tenant m X) (Mild ns tenant m X)
      (fun _ => Clean ns tenant X) s := by
  subst ht hid
  refine acts_bind rely_quiet (Q := fun r s' => r = s.find? .microservice (.inSpace ns
    p.content.microserviceId) ∧ Quiet ns p.content.tenantId p.content.microserviceId X s s')
    (acts_get (rely_mild.faults s) ⟨rfl, rely_quiet.refl s⟩) ?_
  rintro r s₁ hc₁ ⟨rfl, hq₁⟩
  cases hm : s.find? .microservice (.inSpace ns p.content.microserviceId) with
  | none =>
    refine waits_bind (Q := fun _ => Clean ns p.content.tenantId X) ?_ fun _ _ _ h => waits_pure h
    refine waits_bind (Q := fun ps s' => ps = s'.select .pairing (some ns)
      (Naming.microserviceSelector p.content.microserviceId) ∧
        Quiet ns p.content.tenantId p.content.microserviceId X s s') ?_ ?_
    · refine waits_of_acts rely_quiet fun s' _ hq => acts_list (rely_mild.faults s') ⟨rfl, ?_⟩
      exact rely_quiet.trans hq₁ hq
    · rintro _ s₂ hc₂ ⟨rfl, hq₂⟩
      have hs₂ := (hc₁.trans hc₂).leads.sound hs
      have hshape₂ := hq₂.shaped hshape
      refine (waits_clearAll st _ hs₂ (by rwa [hq₂.tenants]) (by rwa [hq₂.sameMicroservices])
        fun q hq p' hp' => ?_).imp fun _ _ h => h (Or.inl ?_)
      · obtain ⟨-, hf, hl⟩ := hs₂.filed.of_mem_space hq
        rw [hf] at hp'
        cases hp'
        exact (hshape₂ hf).satisfies_microserviceSelector_iff.1 hl
      · -- The pairing is among those that are listed.
        have hl := (hshape hp).satisfies_microserviceSelector_iff.2 rfl
        have hp₂ : s₂.find? .pairing key = some p := by rwa [hq₂.samePairings]
        exact ⟨p, mem_select_of_find? hp₂ hns hl, rfl⟩
  | some r =>
    refine waits_bind (Q := fun _ s' => Quiet ns p.content.tenantId p.content.microserviceId X s s')
      ?_ fun _ s₂ hc₂ hq₂ => ?_
    · cases r.content.validate with
      | ok _ => exact hq₁
      | error e => trivial
    refine waits_bind (Q := fun ts s' => ts = s'.select .tenant (some ns) ∅ ∧
      Quiet ns p.content.tenantId p.content.microserviceId X s s') ?_ ?_
    · refine waits_of_acts rely_quiet fun s' _ hq => acts_list (rely_mild.faults s') ⟨rfl, ?_⟩
      exact rely_quiet.trans hq₂ hq
    · rintro _ s₃ hc₃ ⟨rfl, hq₃⟩
      have hs₃ := (hc₁.trans (hc₂.trans hc₃)).leads.sound hs
      have halive₃ : (s₃.find? .tenant (.inSpace ns p.content.tenantId)).isSome := by
        rwa [hq₃.tenants]
      refine waits_bind (waits_tenants st _ hs₃ halive₃) fun _ s₄ _ hq₄ => ?_
      obtain ⟨t, ht⟩ := Option.isSome_iff_exists.1 halive₃
      have hname : t.name = p.content.tenantId := congrArg Key.name (hs₃.filed ht)
      have hmem : t ∈ s₃.select .tenant (some ns) ∅ := mem_select_of_find? ht rfl rfl
      exact waits_pure (hq₄ (Or.inl ⟨t, hmem, hname⟩))

end Cleaning
end TenantOperator
