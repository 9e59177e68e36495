import TenantOperator.Proofs.Interleaving.Discard
import TenantOperator.Proofs.Interleaving.Entry
import TenantOperator.Proofs.Interleaving.Unaware

/-! Pairings that outlive their tenant. The teardown of a tenant clears the pairings that it lists.
A reconcile that knew of the tenant before it was deleted may make one after that, and unlike the
bundle and the routing table nobody discards it then. -/
namespace TenantOperator
open Program Store

namespace Store
variable {s : Store} {c : Call} {k : Kind} {key : Key} {r : Resource k}

theorem find?_of_answer (hc : ¬c.Puts k key) (h : (s.answer c).2.find? k key = some r) :
    s.find? k key = some r := by
  by_cases hd : c = .delete k key
  · subst hd
    cases (s.find?_remove_self k key).symm.trans h
  · rwa [s.find?_answer_of_not_writes fun hw => hw.elim hc hd] at h

theorem find?_of_perform (hc : ¬c.Puts k key) (h : (s.perform c).2.find? k key = some r) :
    s.find? k key = some r := by
  rcases s.perform_eq c with he | ⟨p, l, he⟩ <;> rw [he] at h
  · exact find?_of_answer hc h
  · rwa [find?_setFaults] at h

/-- A modest call makes a pairing of the tenant only where there is none, and only if it does not
shun the tenant. -/
theorem found_or_made {ns tenant : String} (hc : c.Modest) {p : Pairing}
    (h : (s.perform c).2.find? .pairing key = some p) (hp : p.Of ns tenant) :
    s.find? .pairing key = some p ∨ s.find? .pairing key = none ∧ ¬c.Shuns ns tenant := by
  by_cases hput : c.Puts .pairing key
  · obtain ⟨ns', t, m, x, rfl⟩ := hc.2 key hput
    obtain ⟨-, rfl⟩ := hput
    rcases s.perform_create_cases (Pairing.forPair ns' t m x) with ⟨e, l, he⟩ | ⟨hnone, he⟩
    · rw [he, find?_setFaults] at h
      exact Or.inl h
    · rw [he, find?_put_self] at h
      cases h
      obtain ⟨rfl, rfl⟩ := Pairing.of_forPair.1 hp
      exact Or.inr ⟨hnone, fun hshun => hshun m x rfl⟩
  · exact Or.inl (find?_of_perform hput h)

end Store

namespace Reconcile
variable (st : Settings)

/-- What is left of the reconcile of a tenant that is gone when its pairings are listed. -/
def sweep (ns tenant : String) (ps : List Pairing) : Program Outcome := do
  Teardown.clearAll st ns ps
  let _ ← Bundle.deleteTenant ns tenant
  let _ ← Routing.delete ns tenant
  return .tornDown

theorem tenant_eq (ns : String) (key : Key) :
    tenant st ns key = Program.get .tenant key >>= fun
      | some t => do
        let _ ← Matrix.resolveTenant t
        return .converged
      | none => Program.list .pairing (some ns) (Naming.tenantSelector key.name) >>=
        sweep st ns key.name := by
  refine congrArg _ (funext fun t => ?_)
  cases t with
  | some t => rfl
  | none =>
    simp only [Teardown.tenant, Teardown.pairings, Program.bind_assoc]
    rfl

theorem clears_sweep {owner : Key} {ns tenant : String} {ps : List Pairing} {p : Pairing}
    (hp : p ∈ ps) :
    (sweep st ns tenant ps).Clears owner .pairing (.inSpace ns p.name) := by
  refine clears_bind_left ?_
  induction ps with
  | nil => cases hp
  | cons q ps ih =>
    rcases List.mem_cons.1 hp with rfl | hp
    · exact clears_bind_left clears_delete
    · exact clears_bind_right fun _ => clears_bind_right fun _ => ih hp

end Reconcile

namespace Pool
variable {ι α : Type} [DecidableEq ι] {P : Pool ι α} {i j : ι}

/-- Some runs may still make pairings of the tenant, the others do not. -/
structure Bereft (ns tenant : String) (late : ι → Prop) (P : Pool ι α) : Prop where
  filed : P.store.Filed
  gone : P.store.find? .tenant (.inSpace ns tenant) = none
  modest : ∀ i, (P.runs i).Every Call.Modest
  shuns : ∀ i, ¬late i → (P.runs i).Shuns ns tenant

namespace Bereft
variable {ns tenant : String} {late : ι → Prop} (h : Bereft ns tenant late P) {e : Event ι}
include h

theorem step (he : ∀ c, e = .call c → ¬c.Puts .tenant (.inSpace ns tenant)) :
    Bereft ns tenant late (P.step e) where
  filed := filed_step h.filed e
  gone := by
    cases e with
    | call c => exact find?_answer_eq_none h.gone (he c rfl)
    | run i =>
      cases hi : P.runs i with
      | done r => rw [step_run_of_done hi, h.gone]
      | call c next =>
        have hm := h.modest i
        rw [hi] at hm
        rw [store_step_run hi]
        exact find?_perform_eq_none h.gone (hm.1.1 _)
  modest i := every_exec h.filed (h.modest i) [e]
  shuns i hi := by
    have hshun := h.shuns i hi
    rcases runs_step_cases P e i with hr | ⟨c, next, -, hc, hr⟩ <;> rw [hr]
    · exact hshun
    · rw [hc] at hshun
      exact hshun.2 _ (h.filed.admits c) (h.filed.hides h.gone c)

theorem found_or_made (he : ∀ c, e = .call c → ∀ key, ¬c.Puts .pairing key) {key : Key}
    {p : Pairing} (hp : (P.step e).store.find? .pairing key = some p) (ht : p.Of ns tenant) :
    P.store.find? .pairing key = some p ∨
      P.store.find? .pairing key = none ∧ ∃ i, e = .run i ∧ late i := by
  cases e with
  | call c => exact Or.inl (find?_of_answer (he c rfl key) hp)
  | run i =>
    cases hi : P.runs i with
    | done r =>
      rw [step_run_of_done hi] at hp
      exact Or.inl hp
    | call c next =>
      have hm := h.modest i
      rw [hi] at hm
      rw [store_step_run hi] at hp
      refine (Store.found_or_made hm.1 hp ht).imp id fun ⟨hnone, hshun⟩ => ⟨hnone, i, rfl, ?_⟩
      by_contra hlate
      have hs := h.shuns i hlate
      rw [hi] at hs
      exact hshun hs.1

end Bereft

/-- A run that may do so puts the pairing where there is none, after the second turn of the
teardown. -/
def Made (late : ι → Prop) (j : ι) (P : Pool ι α) (es : List (Event ι)) (key : Key)
    (p : Pairing) : Prop :=
  ∃ i before after, es = before ++ .run i :: after ∧ late i ∧ 2 ≤ turns j before ∧
    (P.exec before).store.find? .pairing key = none ∧
    (P.exec (before ++ [.run i])).store.find? .pairing key = some p

theorem Made.concat {late : ι → Prop} {es : List (Event ι)} {key : Key} {p : Pairing}
    (h : Made late j P es key p) (e : Event ι) : Made late j P (es ++ [e]) key p := by
  obtain ⟨i, before, after, rfl, h⟩ := h
  exact ⟨i, before, after ++ [e], by simp, h⟩

section teardown
variable (st : Settings) {ns tenant : String} {late : ι → Prop} {P : Pool ι Outcome}

/-- How far the teardown of the tenant is after some turns. It looks for the tenant, then it lists
the pairings, and from there on it clears each pairing of the tenant that was not made since. -/
def Sweeping (ns tenant : String) (made : Key → Pairing → Prop) (j : ι) (P : Pool ι Outcome) :
    Nat → Prop
  | 0 => P.runs j = reconcile st ⟨.tenant, .inSpace ns tenant⟩
  | 1 => P.runs j = (Program.list .pairing (some ns) (Naming.tenantSelector tenant) >>=
      Reconcile.sweep st ns tenant) ∨ ∃ e, P.runs j = .done (.error e)
  | _ + 2 => ∀ key (p : Pairing), P.store.find? .pairing key = some p → p.Of ns tenant →
      made key p ∨ (P.runs j).Clears (.inSpace ns tenant) .pairing key

theorem sweeping_look (h : Bereft ns tenant late P)
    (hj : P.runs j = reconcile st ⟨.tenant, .inSpace ns tenant⟩) (made : Key → Pairing → Prop) :
    Sweeping st ns tenant made j (P.step (.run j)) 1 := by
  have hcall := hj.trans (Reconcile.tenant_eq st ns (.inSpace ns tenant))
  have hnext := runs_step_run_self hcall
  rcases P.store.perform_eq (.get .tenant (.inSpace ns tenant)) with he | ⟨f, l, he⟩
  · rw [he] at hnext
    simp only [Store.answer, h.gone] at hnext
    exact Or.inl hnext
  · rw [he] at hnext
    exact Or.inr ⟨_, hnext⟩

theorem sweeping_list (h : Bereft ns tenant late P) {made : Key → Pairing → Prop}
    (hj : Sweeping st ns tenant made j P 1) : Sweeping st ns tenant made j (P.step (.run j)) 2 := by
  intro key p hp ht
  right
  rcases hj with hcall | ⟨e, hdone⟩
  · have hnext := runs_step_run_self hcall
    have hstore := store_step_run hcall
    rcases P.store.perform_eq (.list .pairing (some ns) (Naming.tenantSelector tenant)) with
      he | ⟨f, l, he⟩
    · rw [he] at hnext hstore
      rw [hstore] at hp
      have hkey : key = .inSpace ns p.name := by
        rw [← h.filed hp]
        exact congrArg (Key.mk p.name) ht.1
      have hlabel := Metadata.satisfies_tenantSelector.2 ht.2
      have hmem : p ∈ P.store.select .pairing (some ns) (Naming.tenantSelector tenant) :=
        mem_select_of_find? hp (by rw [hkey]; rfl) hlabel
      rw [hnext, hkey]
      exact Reconcile.clears_sweep st hmem
    · rw [he] at hnext
      rw [hnext]
      trivial
  · rw [step_run_of_done hdone, hdone]
    trivial

/-- Once the teardown has listed the pairings, one that is there is new, or it is still to be
cleared. -/
theorem sweeping_clear (h : Bereft ns tenant late P) {made : Key → Pairing → Prop} {n : Nat}
    (hj : Sweeping st ns tenant made j P (n + 2)) {e : Event ι}
    (he : ∀ c, e = .call c → ∀ key, ¬c.Puts .pairing key) {made' : Key → Pairing → Prop}
    (hold : ∀ key p, made key p → made' key p)
    (hnew : ∀ i key p, e = .run i → late i → P.store.find? .pairing key = none →
      (P.step e).store.find? .pairing key = some p → made' key p) (m : Nat) :
    Sweeping st ns tenant made' j (P.step e) (m + 2) := by
  intro key p hp ht
  rcases h.found_or_made he hp ht with hfound | ⟨hnone, i, hi, hlate⟩
  · refine (hj key p hfound ht).imp (hold key p) fun hclears => ?_
    rcases runs_step_cases P e j with hr | ⟨c, next, rfl, hc, hr⟩ <;> rw [hr]
    · exact hclears
    · rw [hc] at hclears
      refine (hclears _ (misses h.gone c)).resolve_left ?_
      rintro ⟨rfl, hok⟩
      rw [store_step_run hc, find?_perform_delete hok] at hp
      cases hp
  · exact Or.inl (hnew i key p hi hlate hnone hp)

omit [DecidableEq ι] in
theorem Sweeping.made {made : Key → Pairing → Prop} {n : Nat}
    (h : Sweeping st ns tenant made j P n) {o : Outcome} (hok : P.runs j = .done (.ok o))
    {key : Key} {p : Pairing} (hp : P.store.find? .pairing key = some p) (ht : p.Of ns tenant) :
    made key p := by
  match n with
  | 0 => cases hok.symm.trans h
  | 1 =>
    rcases h with hcall | ⟨e, he⟩
    · cases hok.symm.trans hcall
    · cases hok.symm.trans he
  | n + 2 =>
    refine (h key p hp ht).resolve_right ?_
    rw [hok]
    exact id

theorem sweeping_exec (h : Bereft ns tenant late P)
    (hj : P.runs j = reconcile st ⟨.tenant, .inSpace ns tenant⟩) {es : List (Event ι)}
    (hes : ∀ c, .call c ∈ es → ¬c.Puts .tenant (.inSpace ns tenant) ∧ ∀ key, ¬c.Puts .pairing key) :
    Bereft ns tenant late (P.exec es) ∧
      Sweeping st ns tenant (Made late j P es) j (P.exec es) (turns j es) := by
  induction es using List.reverseRecOn with
  | nil => exact ⟨h, hj⟩
  | append_singleton es e ih =>
    obtain ⟨hb, hsweep⟩ := ih fun c hc => hes c (List.mem_append_left _ hc)
    have he : ∀ c, e = .call c → ¬c.Puts .tenant (.inSpace ns tenant) ∧
        ∀ key, ¬c.Puts .pairing key := fun c hc => hes c (by simp [hc])
    rw [exec_concat, turns_append]
    refine ⟨hb.step fun c hc => (he c hc).1, ?_⟩
    -- From the second turn on it does not matter whose turn it is.
    have hclear (n m : Nat) (hn : turns j es = n + 2)
        (hj : Sweeping st ns tenant (Made late j P es) j (P.exec es) (n + 2)) :
        Sweeping st ns tenant (Made late j P (es ++ [e])) j ((P.exec es).step e) (m + 2) := by
      refine sweeping_clear st hb hj (fun c hc => (he c hc).2) (fun key p hm => hm.concat e) ?_ m
      rintro i key p rfl hlate hnone hp
      refine ⟨i, es, [], rfl, hlate, by omega, hnone, ?_⟩
      rw [exec_concat, hp]
    obtain ⟨n, hn⟩ : ∃ n, turns j es = n := ⟨_, rfl⟩
    rw [hn] at hsweep ⊢
    by_cases hej : e = .run j
    · subst hej
      rw [turns_self]
      match n with
      | 0 => exact sweeping_look st hb hsweep _
      | 1 => exact sweeping_list st hb hsweep
      | n + 2 => exact hclear n (n + 1) hn hsweep
    · rw [turns_of_ne hej]
      have hstay : ((P.exec es).step e).runs j = (P.exec es).runs j := runs_step_of_ne hej
      match n with
      | 0 => exact hstay.trans hsweep
      | 1 => exact hsweep.imp hstay.trans fun ⟨e, hr⟩ => ⟨e, hstay.trans hr⟩
      | n + 2 => exact hclear n n hn hsweep

end teardown

section deletion
variable (st : Settings) {requests : ι → ReconcileRequest} {s : Store} {ns tenant : String}
  {before after : List (Event ι)}

/-- Whether a run may know of the tenant: the tenant's own reconcile, once it looked for it, and the
reconcile of a microservice in its namespace, once it listed the tenants. -/
def Informed (requests : ι → ReconcileRequest) (ns tenant : String) (es : List (Event ι)) (i : ι) :
    Prop :=
  requests i = ⟨.tenant, .inSpace ns tenant⟩ ∧ 1 ≤ turns i es ∨
    (∃ m, requests i = ⟨.microservice, .inSpace ns m⟩) ∧ 2 ≤ turns i es

theorem shuns_of_not_informed (hs : s.Filed) {es : List (Event ι)}
    (h : ¬Informed requests ns tenant es i) :
    (((ofRequests st requests s).exec es).runs i).Shuns ns tenant := by
  obtain ⟨n, hn⟩ : ∃ n, turns i es = n := ⟨_, rfl⟩
  match n with
  | 0 =>
    rw [runs_exec_of_notMem (turns_eq_zero hn)]
    exact Reconcile.shuns_reconcile (requests i)
  | n + 1 =>
    have ht : requests i ≠ ⟨.tenant, .inSpace ns tenant⟩ := fun he => h (Or.inl ⟨he, by omega⟩)
    by_cases hm : ∃ m, requests i = ⟨.microservice, .inSpace ns m⟩
    · -- It had one turn only.
      have hone : turns i es = 1 := by
        by_contra hne
        exact h (Or.inr ⟨hm, by omega⟩)
      obtain ⟨m, hm⟩ := hm
      have hcall : (ofRequests st requests s).runs i = _ :=
        congrArg (reconcile st) hm
      obtain ⟨a, ha, hr⟩ := admits_of_turn hs hcall hone
      rw [hr]
      exact Reconcile.shuns_of_first (r := ⟨.microservice, .inSpace ns m⟩) rfl rfl a ha
    · exact shuns_of_every (every_exec hs
        (Reconcile.every_shuns_reconcile ht (not_exists.1 hm)) es)

theorem bereft_of_deleted (hs : s.Reached) (before : List (Event ι)) :
    Bereft ns tenant (Informed requests ns tenant before) ((ofRequests st requests s).exec
      (before ++ [.call (.delete .tenant (.inSpace ns tenant))])) where
  filed := filed_exec hs.filed _
  gone := by
    rw [exec_concat]
    exact Store.find?_remove_self ..
  modest i := every_exec hs.filed (Reconcile.steps_modest.reconcile (requests i)) _
  shuns i hi := by
    rw [exec_concat]
    exact shuns_of_not_informed st hs.filed hi

/-- Reconciles take turns, those of pairings among them. A tenant is deleted and not made again, and
a reconcile of it that began after that ends well. Then each pairing of the tenant that is left was
made by a run that may have known of the tenant when it was deleted, in a turn after the one in
which the teardown listed the pairings. -/
theorem made_of_deleted (hs : s.Reached) {j : ι} (hj : requests j = ⟨.tenant, .inSpace ns tenant⟩)
    (hlate : .run j ∉ before)
    (hafter : ∀ c, .call c ∈ after →
      ¬c.Puts .tenant (.inSpace ns tenant) ∧ ∀ key, ¬c.Puts .pairing key)
    {P P' : Pool ι Outcome}
    (hP : (ofRequests st requests s).exec
      (before ++ [.call (.delete .tenant (.inSpace ns tenant))]) = P)
    (hP' : P.exec after = P') {o : Outcome} (hok : P'.runs j = .done (.ok o)) {key : Key}
    {p : Pairing} (hp : P'.store.find? .pairing key = some p) (ht : p.Of ns tenant) :
    P.Made (Informed requests ns tenant before) j after key p := by
  have hb : Bereft ns tenant (Informed requests ns tenant before) P := by
    rw [← hP]
    exact bereft_of_deleted st hs before
  have hstart : P.runs j = reconcile st ⟨.tenant, .inSpace ns tenant⟩ := by
    rw [← hP, exec_concat, ← hj]
    exact runs_exec_of_notMem hlate
  obtain ⟨-, hsweep⟩ := sweeping_exec st hb hstart hafter
  rw [hP'] at hsweep
  exact hsweep.made st hok hp ht

end deletion

section late

def staff (ns tenant : String) {n : Nat} (ms : Fin n → String) : Option (Fin n) → ReconcileRequest
  | none => ⟨.tenant, .inSpace ns tenant⟩
  | some i => ⟨.microservice, .inSpace ns (ms i)⟩

def staffOfA : Option (Fin 1) → ReconcileRequest := staff "dc1" "a" fun _ => "c"

def deletedLate : Pool (Option (Fin 1)) Outcome :=
  (ofRequests {} staffOfA staffed).exec
    ([.run (some 0), .run (some 0)] ++ [.call (.delete .tenant (.inSpace "dc1" "a"))])

/-- The teardown finds no pairing, and then the microservice's reconcile goes on. -/
def goneOn : List (Event (Option (Fin 1))) :=
  List.replicate 4 (.run none) ++ List.replicate 24 (.run (some 0))

theorem made_deletedLate : ∃ p, (deletedLate.exec goneOn).store.find? .pairing
      (.inSpace "dc1" (Naming.pairing "a" "c")) = some p ∧
    deletedLate.Made (Informed staffOfA "dc1" "a" [.run (some 0), .run (some 0)]) none goneOn
      (.inSpace "dc1" (Naming.pairing "a" "c")) p := by
  have hcall : ∀ c, .call c ∉ goneOn := by simp [goneOn]
  have hfound : (deletedLate.exec goneOn).store.find? .pairing
      (.inSpace "dc1" (Naming.pairing "a" "c")) =
        some ((Pairing.forPair "dc1" "a" "c" .empty).withVersion (some "7")) := rfl
  have hdone : (deletedLate.exec goneOn).runs none = .done (.ok .tornDown) := rfl
  exact ⟨_, hfound, made_of_deleted {} reached_staffed (j := none) rfl (by simp)
    (fun c hc => absurd hc (hcall c)) rfl rfl hdone hfound (Pairing.of_forPair.2 ⟨rfl, rfl⟩)⟩

def namesSeen (ns tenant : String) (P : Pool ι Outcome) (es : List (Event ι)) : List String :=
  es.inits.flatMap fun es =>
    ((P.exec es).store.select .pairing (some ns) (Naming.tenantSelector tenant)).map (·.name)

def reconcileEach (st : Settings) (ns : String) (names : List String) (s : Store) : Store :=
  names.foldl (fun s name => ((reconcile st ⟨.pairing, .inSpace ns name⟩).run s).2) s

def lateEvents : List (Event (Option (Fin 1))) :=
  [.run (some 0), .run (some 0)] ++ .call (.delete .tenant (.inSpace "dc1" "a")) :: goneOn

/-- Every pairing of the tenant that there ever was is reconciled once more. -/
def leftOver : Store :=
  reconcileEach {} "dc1" (namesSeen "dc1" "a" (ofRequests {} staffOfA staffed) lateEvents)
    ((ofRequests {} staffOfA staffed).exec lateEvents).store

/-- The microservice's reconcile makes a pairing of the tenant after the teardown, and the reconcile
of that pairing leaves it there. -/
theorem not_forall_tenantId_ne :
    ¬∀ (st : Settings) (s : Store) (ns tenant : String) (n : Nat) (ms : Fin n → String)
      (before after : List (Event (Option (Fin n)))), s.Reached → s.faults = [] → s.Shaped →
      (∀ c, .call c ∉ before ++ after) → .run none ∉ before →
      let start := ofRequests st (staff ns tenant ms) s
      let es := before ++ .call (.delete .tenant (.inSpace ns tenant)) :: after
      (∀ i, ∃ o, (start.exec es).runs i = .done (.ok o)) →
      ∀ name p, (reconcileEach st ns (namesSeen ns tenant start es) (start.exec es).store).find?
        .pairing (.inSpace ns name) = some p → p.content.tenantId ≠ tenant := by
  intro h
  have hshape : staffed.Shaped := fun key p hp => by cases hp
  have hok : ∀ i, ∃ o, ((ofRequests {} staffOfA staffed).exec lateEvents).runs i =
      .done (.ok o) := by
    rintro (_ | i)
    · exact ⟨.tornDown, rfl⟩
    · obtain rfl : i = 0 := Subsingleton.elim ..
      exact ⟨.converged, rfl⟩
  have hleft : (leftOver.find? .pairing (.inSpace "dc1" (Naming.pairing "a" "c"))).map
      (·.content.tenantId) = some "a" := by decide +kernel
  obtain ⟨p, hp, ht⟩ := Option.map_eq_some_iff.1 hleft
  exact h {} staffed "dc1" "a" 1 (fun _ => "c") [.run (some 0), .run (some 0)] goneOn
    reached_staffed rfl hshape (by simp [goneOn]) (by simp) hok (Naming.pairing "a" "c") p hp ht

end late
end Pool
end TenantOperator
