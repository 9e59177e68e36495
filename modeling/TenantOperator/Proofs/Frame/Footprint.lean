import Mathlib.Tactic.ByContra
import TenantOperator.Proofs.Frame.Spans
import TenantOperator.Proofs.Interruption.Resolver
import TenantOperator.Proofs.Removal.Rooted

/-! What a reconcile may change. One that finds its entity makes what is missing, one that does not
only deletes; bundles and routing tables of tenants are all that either writes over. -/
namespace TenantOperator
open Program Store

/-- Objects that are made once: they stay as they are, or they go. -/
def Kind.MadeOnce (k : Kind) (key : Key) : Prop :=
  k = .pairing ∨ k = .deployment ∨ k = .service ∨ k = .space ∨
    ∃ i, k = .configMap ∧ key = Bundle.instanceKey i

theorem Bundle.Shared.not_declared {ns t : String} {k : Kind} {key : Key}
    (h : Shared ns t k key) : ¬k.Declared := by
  rcases h with ⟨rfl, -⟩ | ⟨rfl, -⟩ <;> simp [Kind.Declared]

theorem Bundle.Shared.not_madeOnce {ns t : String} {k : Kind} {key : Key}
    (h : Shared ns t k key) : ¬k.MadeOnce key := by
  rcases h with ⟨rfl, rfl⟩ | ⟨rfl, -⟩
  · rintro (h | h | h | h | ⟨i, -, h⟩)
    · cases h
    · cases h
    · cases h
    · cases h
    · exact Naming.tenantBundle_ne_instanceBundle (Key.inSpace_inj.1 h).2
  · simp [Kind.MadeOnce]

namespace ReconcileRequest
variable {r : ReconcileRequest} {x y : Store}

/-- Slots that a request is about: two of an instance, or those of its namespace. -/
def Scope (r : ReconcileRequest) (k : Kind) (key : Key) : Prop :=
  match r.kind with
  | .inst => k = .space ∧ key = .clusterWide r.key.name ∨
      k = .configMap ∧ key = Bundle.instanceKey r.key.name
  | _ => ∃ ns, r.key.ns = some ns ∧ key.ns = some ns

/-- What a request may make of a store, in one call or in many. -/
structure Touches (r : ReconcileRequest) (x y : Store) : Prop where
  /-- Users' objects are left alone. -/
  declared : ∀ k key, k.Declared → y.find? k key = x.find? k key
  unchanged : ∀ k key a b, k.MadeOnce key → x.find? k key = some a → y.find? k key = some b → b = a
  lasting : ∀ k key a, (k = .space ∨ ∃ i, k = .configMap ∧ key = Bundle.instanceKey i) →
    x.find? k key = some a → y.find? k key = some a
  updated : ∀ k key a b, x.find? k key = some a → y.find? k key = some b → b ≠ a →
    ∃ ns t, Bundle.Shared ns t k key
  scope : ∀ k key, y.find? k key ≠ x.find? k key → r.Scope k key

variable {P N : Kind → Key → Prop}

/-- Outside of what tenants share, a slot is only filled or emptied. -/
theorem touches_of (hP : ∀ k key, P k key → r.Scope k key ∧ ∃ ns t, Bundle.Shared ns t k key)
    (hN : ∀ k key, N k key → r.Scope k key ∧ ¬k.Declared)
    (h : ∀ k key, y.find? k key ≠ x.find? k key →
      P k key ∨ N k key ∧ (x.find? k key = none ∨ y.find? k key = none))
    (hlasting : ∀ k key, (k = .space ∨ ∃ i, k = .configMap ∧ key = Bundle.instanceKey i) →
      (x.find? k key).isSome → y.find? k key ≠ x.find? k key → P k key) : r.Touches x y := by
  have hupdated : ∀ k key a b, x.find? k key = some a → y.find? k key = some b → b ≠ a →
      ∃ ns t, Bundle.Shared ns t k key := by
    intro k key a b ha hb hne
    rcases h k key (by simpa [ha, hb] using hne) with hp | ⟨-, hnone⟩
    · exact (hP k key hp).2
    · simp [ha, hb] at hnone
  refine ⟨fun k key hk => ?_, fun k key a b hk ha hb => ?_, fun k key a hk ha => ?_, hupdated,
    fun k key hne => ?_⟩
  · by_contra hne
    rcases h k key hne with hp | ⟨hn, -⟩
    · obtain ⟨ns, t, hs⟩ := (hP k key hp).2
      exact hs.not_declared hk
    · exact (hN k key hn).2 hk
  · by_contra hne
    obtain ⟨ns, t, hs⟩ := hupdated k key a b ha hb hne
    exact hs.not_madeOnce hk
  · by_contra hne
    obtain ⟨ns, t, hs⟩ := (hP k key (hlasting k key hk (by simp [ha]) (by rwa [ha]))).2
    refine hs.not_madeOnce ?_
    simpa [Kind.MadeOnce] using Or.inr (Or.inr (Or.inr hk))
  · rcases h k key hne with hp | ⟨hn, -⟩
    · exact (hP k key hp).1
    · exact (hN k key hn).1

theorem touches_of_adds (hP : ∀ k key, P k key → r.Scope k key ∧ ∃ ns t, Bundle.Shared ns t k key)
    (hN : ∀ k key, N k key → r.Scope k key ∧ ¬k.Declared) (h : Adds P N x y) : r.Touches x y := by
  refine touches_of hP hN (fun k key hne => ?_) fun k key _ hsome hne => ?_
  · exact (h k key hne).imp_right fun hn => ⟨hn.1, Or.inl hn.2⟩
  · refine (h k key hne).resolve_right fun hn => ?_
    simp [hn.2] at hsome

theorem touches_of_drops (hP : ∀ k key, P k key → r.Scope k key ∧ ∃ ns t, Bundle.Shared ns t k key)
    (hN : ∀ k key, N k key → r.Scope k key ∧ (k = .pairing ∨ k = .deployment ∨ k = .service))
    (h : Drops P N x y) : r.Touches x y := by
  refine touches_of (N := N) hP (fun k key hn => ⟨(hN k key hn).1, ?_⟩) (fun k key hne => ?_)
    fun k key hk _ hne => ?_
  · rcases (hN k key hn).2 with rfl | rfl | rfl <;> simp [Kind.Declared]
  · exact (h k key hne).imp_right fun hn => ⟨hn.1, Or.inr hn.2⟩
  · refine (h k key hne).resolve_right fun hn => ?_
    rcases (hN k key hn.1).2 with rfl | rfl | rfl <;> simp at hk

end ReconcileRequest

namespace Reconcile

/-- What reconciles in a namespace make and delete, and never write over. -/
def Own (ns : String) (k : Kind) (key : Key) : Prop :=
  key.ns = some ns ∧ (k = .pairing ∨ k = .deployment ∨ k = .service)

def Common (ns : String) (k : Kind) (key : Key) : Prop := ∃ t, Bundle.Shared ns t k key

def Base (inst : String) (k : Kind) (key : Key) : Prop :=
  k = .space ∧ key = .clusterWide inst ∨ k = .configMap ∧ key = Bundle.instanceKey inst

abbrev Builds (ns : String) : Call → Prop := Call.Makes (Common ns) (Own ns)

abbrev Clears (ns : String) : Call → Prop := Call.Discards (Common ns) (Own ns)

theorem Common.ns_eq {ns : String} {k : Kind} {key : Key} (h : Common ns k key) :
    key.ns = some ns := by
  obtain ⟨t, ⟨-, rfl⟩ | ⟨-, rfl⟩⟩ := h <;> rfl

end Reconcile

theorem Workload.every_parent_bind {β : Type} {Q : Call → Prop} {k : Kind} {key : Key} {e : Error}
    {f : Resource k → Program β} (hread : Q (.get k key))
    (hf : ∀ r, r.key = key → (f r).Every Q) : (parent k key e >>= f).Every Q := by
  rw [parent, Program.bind_assoc]
  refine every_perform_bind hread fun a ha => ?_
  cases a with
  | none => trivial
  | some r => exact hf r ha

namespace Reconcile
variable (st : Settings) {ns : String}

theorem builds_read {c : Call} (h : c.Reads) : (perform c).Every (Builds ns) :=
  every_perform (Call.makes_read h)

theorem makes_synthesize {P N : Kind → Key → Prop} {p : Pairing} (hp : p.metadata.ns = some ns)
    (hN : ∀ key : Key, key.ns = some ns → N .service key ∧ N .deployment key) :
    (Workload.synthesize p).Every (Call.Makes P N) := by
  have hread (k : Kind) (key : Key) : (Call.get k key).Makes P N :=
    Call.makes_read (Call.reads_get _ _)
  simp only [Workload.synthesize, hp]
  refine every_bind (every_perform (hread ..)) fun d => ?_
  cases d with
  | some d => trivial
  | none =>
    refine Workload.every_parent_bind (hread ..) fun t _ =>
      Workload.every_parent_bind (hread ..) fun m _ =>
      Workload.every_parent_bind (hread ..) fun i hi => ?_
    -- The instance was found under the namespace's name, so the children lie in the namespace.
    have hname : i.name = ns := congrArg Key.name hi
    have hkey : (Workload.metadata i.name t.name m.name).key.ns = some ns := by rw [hname]; rfl
    refine every_bind (makes_ensureCreated (hN _ hkey).1) fun _ => ?_
    exact every_bind (makes_ensureCreated (hN _ hkey).2) fun _ => trivial

theorem builds_synthesize {p : Pairing} (hp : p.metadata.ns = some ns) :
    (Workload.synthesize p).Every (Builds ns) :=
  makes_synthesize hp fun _ hkey => ⟨⟨hkey, by simp⟩, ⟨hkey, by simp⟩⟩

theorem builds_pairAll (tenant : String) (ms : List Microservice) :
    (Matrix.pairAll ns tenant ms).Every (Builds ns) := by
  induction ms with
  | nil => trivial
  | cons m ms ih =>
    refine every_bind ?_ fun c => every_bind ?_ fun _ => every_bind ih fun _ => trivial
    · exact every_bind ((reads_getRequired ..).mono fun _ h => Call.makes_read h) fun _ => trivial
    · exact makes_ensureCreated ⟨rfl, by simp⟩

theorem builds_resolveTenant {t : Tenant} (ht : t.metadata.ns = some ns) :
    (Matrix.resolveTenant t).Every (Builds ns) := by
  simp only [Matrix.resolveTenant, ht]
  exact every_bind (builds_read (Call.reads_list _ _ _)) fun _ =>
    every_bind (builds_read (Call.reads_list _ _ _)) fun _ => builds_pairAll ..

theorem builds_syncTenant (tenant : String) :
    (Teardown.syncTenant st ns tenant).Every (Builds ns) :=
  Within.makes ((Teardown.within_syncTenant st ns tenant).imp fun _ _ h => ⟨tenant, h⟩)

theorem builds_tenants {ts : List Tenant} (h : ∀ t ∈ ts, t.metadata.ns = some ns) :
    (tenants st ns ts).Every (Builds ns) := by
  induction ts with
  | nil => trivial
  | cons t ts ih =>
    have hts : ∀ t ∈ ts, t.metadata.ns = some ns := fun t' ht => h t' (List.mem_cons_of_mem t ht)
    exact every_bind (builds_resolveTenant (h t List.mem_cons_self)) fun _ =>
      every_bind (builds_syncTenant st t.name) fun _ => ih hts

theorem builds_live {p : Pairing} (hp : p.metadata.ns = some ns) :
    (live st ns p).Every (Builds ns) := by
  have hparent {k : Kind} {key : Key} {e : Error} :
      (Workload.parent k key e).Every (Builds ns) :=
    (reads_parent k key e).mono fun _ h => Call.makes_read h
  rw [live_eq]
  refine every_bind (every_ofExcept _) fun _ => every_bind hparent fun _ =>
    every_bind (builds_synthesize hp) fun _ => ?_
  exact Within.makes ((within_announce st ns p).imp fun _ _ h => ⟨_, h⟩)

theorem builds_spread (m : Microservice) : (spread st ns m).Every (Builds ns) := by
  refine every_bind (every_ofExcept _) fun _ => ?_
  refine every_perform_bind (Call.makes_read (Call.reads_list _ _ _)) fun ts hts => ?_
  exact every_bind (builds_tenants st fun t ht => (hts t ht).1 ns rfl) fun _ => trivial

theorem makes_made (key : Key) (i : Instance) :
    (made key i).Every (Call.Makes (fun _ _ => False) (Base key.name)) := by
  refine every_bind (every_ofExcept _) fun _ =>
    every_bind (makes_ensureCreated (Or.inl ⟨rfl, rfl⟩)) fun _ =>
    every_bind (every_perform (Call.makes_read (Call.reads_get _ _))) fun cm => ?_
  cases cm with
  | some cm => trivial
  | none =>
    refine every_bind ((reads_getRequired ..).mono fun _ h => Call.makes_read h) fun t =>
      every_bind (every_bind (makes_ensureCreated (Or.inr ⟨rfl, rfl⟩)) fun b => ?_) fun _ => trivial
    cases b <;> trivial

theorem clears_read {α : Type} {p : Program α} (h : p.Every Call.Reads) : p.Every (Clears ns) :=
  h.mono fun _ hc => Call.discards_read hc

theorem clears_delete {k : Kind} {name : String}
    (hk : k = .pairing ∨ k = .deployment ∨ k = .service) :
    (Program.delete k (.inSpace ns name)).Every (Clears ns) :=
  every_perform (Or.inr ⟨k, _, rfl, rfl, hk⟩)

theorem clears_clearPairing (name tenant : String) :
    (Teardown.clearPairing st ns name tenant).Every (Clears ns) := by
  have hsync : (Teardown.syncTenant st ns tenant).Within (Common ns) :=
    (Teardown.within_syncTenant st ns tenant).imp fun _ _ h => ⟨tenant, h⟩
  exact every_bind (Within.discards hsync) fun _ => every_bind (clears_delete (by simp)) fun _ =>
    every_bind (clears_delete (by simp)) fun _ => trivial

theorem clears_pairing (name : String) (tenant : Option String) :
    (Teardown.pairing st ns name tenant).Every (Clears ns) := by
  cases tenant with
  | some t => exact clears_clearPairing st name t
  | none =>
    refine every_bind (clears_read (reads_pairingTenant _)) fun t => ?_
    cases t with
    | some t => exact clears_clearPairing st name t
    | none => trivial

theorem clears_clearAll (ps : List Pairing) : (Teardown.clearAll st ns ps).Every (Clears ns) := by
  induction ps with
  | nil => trivial
  | cons p ps ih =>
    exact every_bind (clears_delete (by simp)) fun _ => every_bind (clears_pairing ..) fun _ => ih

theorem clears_pairings (selector : Labels) :
    (Teardown.pairings st ns selector).Every (Clears ns) :=
  every_bind (clears_read (reads_list ..)) fun _ => clears_clearAll ..

theorem clears_clearTenant (tenant : String) :
    (Teardown.tenant st ns tenant).Every (Clears ns) := by
  have hbundle : (Program.delete .configMap (Bundle.tenantKey ns tenant)).Within (Common ns) :=
    (within_delete ..).imp fun _ _ h => ⟨tenant, Or.inl h⟩
  have htable : (Program.delete .ingress (Routing.tableKey ns tenant)).Within (Common ns) :=
    (within_delete ..).imp fun _ _ h => ⟨tenant, Or.inr h⟩
  refine every_bind (clears_pairings st _) fun _ =>
    every_bind (every_bind (Within.discards hbundle) fun b => ?_) fun _ =>
    every_bind (every_bind (Within.discards htable) fun b => ?_) fun _ => trivial
  · cases b <;> trivial
  · cases b <;> trivial

/-- The calls of the program add up to what the request may do. -/
def Careful {α : Type} (r : ReconcileRequest) (p : Program α) : Prop :=
  ∃ (Q : Call → Prop) (T : Store → Store → Prop), Rely T ∧ (∀ c, c.Reads → Q c) ∧
    (∀ s c, Q c → T s (s.perform c).2) ∧ (∀ x y, T x y → r.Touches x y) ∧ p.Every Q

variable {r : ReconcileRequest} {α : Type} {p : Program α}

theorem scope_of_ns {k : Kind} {key : Key} (hr : r.kind ≠ .inst) (hns : r.key.ns = some ns)
    (hkey : key.ns = some ns) : r.Scope k key := by
  obtain ⟨kind, rkey⟩ := r
  cases kind with
  | inst => exact absurd rfl hr
  | tenant => exact ⟨ns, hns, hkey⟩
  | microservice => exact ⟨ns, hns, hkey⟩
  | pairing => exact ⟨ns, hns, hkey⟩

theorem careful_of_builds (hr : r.kind ≠ .inst) (hns : r.key.ns = some ns)
    (h : p.Every (Builds ns)) : Careful r p := by
  refine ⟨_, _, rely_adds (Common ns) (Own ns), fun _ => Call.makes_read, fun s c hc => hc.adds s,
    fun x y hxy => ReconcileRequest.touches_of_adds (fun k key hk => ?_) (fun k key hk => ?_) hxy,
    h⟩
  · exact ⟨scope_of_ns hr hns hk.ns_eq, ns, hk⟩
  · refine ⟨scope_of_ns hr hns hk.1, ?_⟩
    rcases hk.2 with rfl | rfl | rfl <;> simp [Kind.Declared]

theorem careful_of_clears (hr : r.kind ≠ .inst) (hns : r.key.ns = some ns)
    (h : p.Every (Clears ns)) : Careful r p := by
  refine ⟨_, _, rely_drops (Common ns) (Own ns), fun _ => Call.discards_read,
    fun s c hc => hc.drops s,
    fun x y hxy => ReconcileRequest.touches_of_drops (fun k key hk => ?_) (fun k key hk => ?_) hxy,
    h⟩
  · exact ⟨scope_of_ns hr hns hk.ns_eq, ns, hk⟩
  · exact ⟨scope_of_ns hr hns hk.1, hk.2⟩

theorem careful_of_makes {key : Key} (h : p.Every (Call.Makes (fun _ _ => False) (Base key.name))) :
    Careful ⟨.inst, key⟩ p := by
  refine ⟨_, _, rely_adds _ _, fun _ => Call.makes_read, fun s c hc => hc.adds s,
    fun x y hxy =>
      ReconcileRequest.touches_of_adds (fun _ _ hk => hk.elim) (fun k key hk => ?_) hxy, h⟩
  refine ⟨hk, ?_⟩
  rcases hk with ⟨rfl, -⟩ | ⟨rfl, -⟩ <;> simp [Kind.Declared]

theorem careful_done (r : ReconcileRequest) (res : Except Error α) : Careful r (.done res) :=
  ⟨_, _, rely_agreeOff fun _ _ => False, fun _ h => h,
    fun s _ h k key _ => s.find?_perform_of_not_writes (h k key),
    fun _ _ h => ReconcileRequest.touches_of_adds (P := fun _ _ => False) (N := fun _ _ => False)
      (fun _ _ hk => hk.elim) (fun _ _ hk => hk.elim) (adds_of_agreeOff h), trivial⟩

/-- A request is refused, or it reads its entity and goes on with care whatever it finds. -/
theorem reconcile_cases (r : ReconcileRequest) : (∃ e, reconcile st r = .fail e) ∨
    ∃ k, ∃ f : Option (Resource k) → Program Outcome,
      reconcile st r = Program.get k r.key >>= f ∧
      ∀ a, (Call.get k r.key).Admits (.ok a) → Careful r (f a) := by
  obtain ⟨kind, name, space⟩ := r
  cases kind with
  | inst =>
    refine Or.inr ⟨_, _, inst_eq _, fun i _ => ?_⟩
    cases i with
    | none => exact careful_done ..
    | some i => exact careful_of_makes (makes_made _ i)
  | tenant =>
    cases space with
    | none => exact Or.inl ⟨_, rfl⟩
    | some ns =>
      refine Or.inr ⟨_, _, rfl, fun t ht => ?_⟩
      cases t with
      | none =>
        exact careful_of_clears (by simp) rfl
          (every_bind (clears_clearTenant st name) fun _ => trivial)
      | some t =>
        exact careful_of_builds (by simp) rfl
          (every_bind (builds_resolveTenant (congrArg Key.ns ht)) fun _ => trivial)
  | microservice =>
    cases space with
    | none => exact Or.inl ⟨_, rfl⟩
    | some ns =>
      refine Or.inr ⟨_, _, microservice_eq st ns _, fun m _ => ?_⟩
      cases m with
      | none =>
        exact careful_of_clears (by simp) rfl (every_bind (clears_pairings ..) fun _ => trivial)
      | some m => exact careful_of_builds (by simp) rfl (builds_spread st m)
  | pairing =>
    cases space with
    | none => exact Or.inl ⟨_, rfl⟩
    | some ns =>
      refine Or.inr ⟨_, _, pairing_eq st ns _, fun p hp => ?_⟩
      cases p with
      | none =>
        exact careful_of_clears (by simp) rfl (every_bind (clears_pairing ..) fun _ => trivial)
      | some p => exact careful_of_builds (by simp) rfl (builds_live st (congrArg Key.ns hp))

theorem touches_of_spans {s x y : Store} (hs : s.Filed) (h : (reconcile st r).Spans s x y) :
    r.Touches x y := by
  rcases reconcile_cases st r with ⟨e, he⟩ | ⟨k, f, he, hf⟩ <;> rw [he] at h
  · obtain ⟨Q, T, hT, -, hkeep, htouch, hQ⟩ :=
      careful_done r (Except.error e : Except Error Outcome)
    exact htouch x y (hQ.spans hT hkeep hs h)
  · obtain ⟨Q, T, hT, hread, hkeep, htouch, hQ⟩ := hf _ (hs.admits_answer (.get k r.key))
    exact htouch x y (spans_get_bind hT hkeep hs (hread _ (Call.reads_get _ _)) hQ h)

end Reconcile

end TenantOperator
