import TenantOperator.Proofs.Interleaving.Tidy
import TenantOperator.Proofs.Tenancy.Matrix
import TenantOperator.Proofs.Tenancy.Steps

/-! Reconciles that race with a tenant's teardown. Each of them looks for the tenant after its last
write to the tenant's bundle or routing table, and discards both when it finds the tenant gone. -/
namespace TenantOperator
namespace Reconcile
open Program

section tidy
variable (st : Settings) {ns tenant : String} {k : Kind} {key : Key}

theorem clears_deleteTenant {owner : Key} {ns tenant : String} :
    (Bundle.deleteTenant ns tenant).Clears owner .configMap (Bundle.tenantKey ns tenant) :=
  clears_bind_left clears_delete

theorem clears_deleteTable {owner : Key} {ns tenant : String} :
    (Routing.delete ns tenant).Clears owner .ingress (Routing.tableKey ns tenant) :=
  clears_bind_left clears_delete

theorem clears_discardIfTenantGone (hx : Bundle.Shared ns tenant k key) :
    (Teardown.discardIfTenantGone ns tenant).Clears (.inSpace ns tenant) k key := by
  refine clears_get_bind ?_
  rcases hx with ⟨rfl, rfl⟩ | ⟨rfl, rfl⟩
  · exact clears_bind_left clears_deleteTenant
  · exact clears_bind_right fun _ => clears_bind_left clears_deleteTable

theorem clears_tenant (hx : Bundle.Shared ns tenant k key) :
    (Reconcile.tenant st ns (.inSpace ns tenant)).Clears (.inSpace ns tenant) k key := by
  refine clears_get_bind (clears_bind_left (clears_bind_right fun _ => ?_))
  rcases hx with ⟨rfl, rfl⟩ | ⟨rfl, rfl⟩
  · exact clears_bind_left clears_deleteTenant
  · exact clears_bind_right fun _ => clears_bind_left clears_deleteTable

variable {owner : Key}

theorem spares_of_reads {c : Call} (h : c.Reads) : c.Spares owner k key :=
  ⟨fun hp => h _ _ (Or.inl hp), fun hp => h _ _ (Or.inl hp)⟩

theorem spares_delete (k' : Kind) (key' : Key) : (Call.delete k' key').Spares owner k key :=
  ⟨id, id⟩

theorem every_discardIfTenantGone {Q : Call → Prop} (ns tenant : String)
    (hr : ∀ c : Call, c.Reads → Q c) (hd : ∀ k key, Q (.delete k key)) :
    (Teardown.discardIfTenantGone ns tenant).Every Q := by
  refine every_bind (every_perform (hr _ (Call.reads_get _ _))) fun t => ?_
  cases t with
  | some t => trivial
  | none =>
    refine every_bind (every_bind (every_perform (hd ..)) fun b => ?_) fun _ =>
      every_bind (Routing.every_delete ns tenant (hd ..)) fun _ => trivial
    cases b <;> trivial

theorem spares_configMap (hne : ¬Bundle.Shared ns tenant k key) {r : ConfigMap}
    (hr : r.key = Bundle.tenantKey ns tenant) :
    (Call.create .configMap r).Spares owner k key ∧
      (Call.update .configMap r).Spares owner k key := by
  have hput : ¬(Kind.configMap = k ∧ r.key = key) := by
    rintro ⟨rfl, rfl⟩
    exact hne (Or.inl ⟨rfl, hr⟩)
  exact ⟨⟨by simp [Call.Puts], hput⟩, ⟨by simp [Call.Puts], hput⟩⟩

theorem spares_ingress (hne : ¬Bundle.Shared ns tenant k key) {r : Ingress}
    (hr : r.key = Routing.tableKey ns tenant) :
    (Call.create .ingress r).Spares owner k key ∧
      (Call.update .ingress r).Spares owner k key := by
  have hput : ¬(Kind.ingress = k ∧ r.key = key) := by
    rintro ⟨rfl, rfl⟩
    exact hne (Or.inr ⟨rfl, hr⟩)
  exact ⟨⟨by simp [Call.Puts], hput⟩, ⟨by simp [Call.Puts], hput⟩⟩

theorem tidy_rebuild_discard (ns' tenant' : String) (hx : Bundle.Shared ns tenant k key) :
    (Routing.rebuild st ns' tenant' >>= fun _ =>
      Teardown.discardIfTenantGone ns' tenant').Tidy (.inSpace ns tenant) k key := by
  have hdiscard : (Teardown.discardIfTenantGone ns' tenant').Tidy (.inSpace ns tenant) k key :=
    tidy_of_every (every_discardIfTenantGone ns' tenant' (fun _ => spares_of_reads) spares_delete)
  by_cases hs : Bundle.Shared ns' tenant' k key
  · obtain ⟨rfl, rfl⟩ := Bundle.shared_inj hx hs
    refine tidy_bind_of_clears ?_ (fun _ => clears_discardIfTenantGone hx) fun _ => hdiscard
    refine Routing.every_rebuild st ns tenant (fun c hc hp => hc _ _ (Or.inl hp)) id fun r _ => ?_
    exact ⟨by simp [Call.Puts], by simp [Call.Puts]⟩
  · refine tidy_bind (tidy_of_every ?_) fun _ => hdiscard
    exact Routing.every_rebuild st ns' tenant' (fun _ => spares_of_reads) (spares_delete ..)
      fun r hr => spares_ingress hs hr

theorem tidy_write_rebuild_discard {α : Type} {p : Program α} (ns' tenant' : String)
    (hx : Bundle.Shared ns tenant k key)
    (hp : ∀ Q : Call → Prop, (∀ c : Call, c.Reads → Q c) →
      (∀ r : ConfigMap, r.key = Bundle.tenantKey ns' tenant' →
        Q (.create .configMap r) ∧ Q (.update .configMap r)) → p.Every Q) :
    (p >>= fun _ => Routing.rebuild st ns' tenant' >>= fun _ =>
      Teardown.discardIfTenantGone ns' tenant').Tidy (.inSpace ns tenant) k key := by
  have hrest := tidy_rebuild_discard st ns' tenant' hx
  by_cases hs : Bundle.Shared ns' tenant' k key
  · obtain ⟨rfl, rfl⟩ := Bundle.shared_inj hx hs
    refine tidy_bind_of_clears (hp _ (fun c hc hq => hc _ _ (Or.inl hq)) fun r _ => ?_)
      (fun _ => clears_bind_right fun _ => clears_discardIfTenantGone hx) fun _ => hrest
    exact ⟨by simp [Call.Puts], by simp [Call.Puts]⟩
  · refine tidy_bind (tidy_of_every ?_) fun _ => hrest
    exact hp _ (fun _ => spares_of_reads) fun r hr => spares_configMap hs hr

theorem tidy_syncTenant (ns' tenant' : String) (hx : Bundle.Shared ns tenant k key) :
    (Teardown.syncTenant st ns' tenant').Tidy (.inSpace ns tenant) k key := by
  refine tidy_bind (tidy_of_every ((reads_resolveForTenant ns' tenant').mono fun _ =>
    spares_of_reads)) fun ps => ?_
  have hwrite := tidy_write_rebuild_discard (p := Bundle.sync st ns' tenant' ps) st ns' tenant' hx
    fun _ hr hq => Bundle.every_sync st ns' tenant' (fun _ _ => hr _ (Call.reads_get _ _)) hq ps
  have hall := tidy_bind hwrite fun gone =>
    (show (pure !gone : Program Bool).Tidy _ k key from trivial)
  simpa only [Program.bind_assoc] using hall

theorem tidy_publish (ns' tenant' area : String) (c : Configuration)
    (hx : Bundle.Shared ns tenant k key) :
    (publish st ns' tenant' area c).Tidy (.inSpace ns tenant) k key :=
  tidy_write_rebuild_discard st ns' tenant' hx fun _ hr hq =>
    Bundle.every_applyEntry st ns' tenant' (fun _ _ => hr _ (Call.reads_get _ _)) hq area c

theorem spares_create_of_ne {k' : Kind} {r : Resource k'} (ht : k' ≠ .tenant)
    (hne : k' = k → r.key ≠ key) : (Call.create k' r).Spares owner k key :=
  ⟨fun h => ht h.1, fun h => hne h.1 h.2⟩

/-- Every step of a reconcile clears up behind itself. -/
theorem steps_tidy (hx : Bundle.Shared ns tenant k key) :
    Steps st fun _ p => p.Tidy (.inSpace ns tenant) k key := by
  have hk : k = .configMap ∨ k = .ingress := hx.imp (·.1) (·.1)
  have hne : ∀ {k' : Kind} (r : Resource k'), k' ≠ .tenant → k' ≠ .configMap → k' ≠ .ingress →
      (ensureCreated r).Tidy (.inSpace ns tenant) k key := by
    intro k' r ht hc hi
    refine tidy_of_every (every_ensureCreated (spares_create_of_ne ht ?_))
    rintro rfl
    exact absurd hk (by simp [hc, hi])
  refine
    { done := fun r => trivial
      bind := tidy_bind
      read := fun hc => tidy_of_every (every_perform (spares_of_reads hc))
      delete := fun k' key' => tidy_of_every (every_perform (spares_delete k' key'))
      makePairing := fun ns t m c => hne _ (by simp) (by simp) (by simp)
      makeService := fun i t m => hne _ (by simp) (by simp) (by simp)
      makeDeployment := fun i t m => hne _ (by simp) (by simp) (by simp)
      makeSpace := fun i => hne _ (by simp) (by simp) (by simp)
      makeBundle := fun i c => ?_
      sync := fun ns' tenant' => tidy_syncTenant st ns' tenant' hx
      publish := fun ns' tenant' area c => tidy_publish st ns' tenant' area c hx }
  refine tidy_of_every (every_ensureCreated (spares_create_of_ne (by simp) ?_))
  rintro rfl hkey
  have hb : key = Bundle.tenantKey ns tenant := by simpa [Bundle.Shared] using hx
  rw [hb] at hkey
  exact Naming.tenantBundle_ne_instanceBundle (congrArg Key.name hkey).symm

end tidy

end Reconcile

namespace Pool
variable {ι : Type} [DecidableEq ι]

def ofRequests (st : Settings) (requests : ι → ReconcileRequest) (s : Store) : Pool ι Outcome :=
  ⟨s, fun i => reconcile st (requests i)⟩

/-- A tenant's reconcile that begins after the tenant is gone makes the pool clear what the tenant's
pairings shared. -/
theorem clearing_of_deleted (st : Settings) {requests : ι → ReconcileRequest} {s : Store}
    (hs : s.Filed) {ns tenant : String} {k : Kind} {key : Key}
    (hx : Bundle.Shared ns tenant k key) {before : List (Event ι)} {j : ι}
    (hj : requests j = ⟨.tenant, .inSpace ns tenant⟩) (hlate : .run j ∉ before) :
    Clearing (.inSpace ns tenant) k key
      ((ofRequests st requests s).exec
        (before ++ [.call (.delete .tenant (.inSpace ns tenant))])) := by
  have hstart : Orderly (.inSpace ns tenant) k key (ofRequests st requests s) :=
    ⟨hs, fun i => (Reconcile.steps_tidy st hx).reconcile (requests i)⟩
  rw [exec_append]
  refine ⟨(hstart.exec before).exec _, Store.find?_remove_self .., Or.inr ⟨j, ?_⟩⟩
  show ((ofRequests st requests s).exec before).runs j |>.Clears (.inSpace ns tenant) k key
  rw [runs_exec_of_notMem hlate]
  show (reconcile st (requests j)).Clears (.inSpace ns tenant) k key
  rw [hj]
  exact Reconcile.clears_tenant st hx

/-- However reconciles take turns, once a tenant is deleted and not made again, and a reconcile of
it begins after that, its bundle and its routing table are gone when all of them have ended well.
Other writers may do what they like before, and later whatever does not make one of the three. -/
theorem find?_shared_of_deleted (st : Settings) (requests : ι → ReconcileRequest) {s : Store}
    (hs : s.Reached) {ns tenant : String} {before after : List (Event ι)} {j : ι}
    (hj : requests j = ⟨.tenant, .inSpace ns tenant⟩) (hlate : .run j ∉ before)
    (hafter : ∀ c, .call c ∈ after → ¬c.Puts .tenant (.inSpace ns tenant) ∧
      ∀ k key, Bundle.Shared ns tenant k key → ¬c.Puts k key)
    {P : Pool ι Outcome}
    (hP : (ofRequests st requests s).exec
      (before ++ .call (.delete .tenant (.inSpace ns tenant)) :: after) = P)
    (hok : ∀ i, ∃ o, P.runs i = .done (.ok o)) :
    P.store.find? .configMap (Bundle.tenantKey ns tenant) = none ∧
      P.store.find? .ingress (Routing.tableKey ns tenant) = none := by
  have hall : ∀ k key, Bundle.Shared ns tenant k key → P.store.find? k key = none := by
    intro k key hx
    have hdel := clearing_of_deleted st hs.filed hx hj hlate
    have hend := hdel.exec fun c hc => ⟨(hafter c hc).1, (hafter c hc).2 k key hx⟩
    rw [← exec_append, List.append_assoc, List.singleton_append, hP] at hend
    exact hend.find?_eq_none hok
  exact ⟨hall _ _ (Or.inl ⟨rfl, rfl⟩), hall _ _ (Or.inr ⟨rfl, rfl⟩)⟩

def racers : Bool → ReconcileRequest
  | false => ⟨.microservice, .inSpace "dc1" "c"⟩
  | true => ⟨.tenant, .inSpace "dc1" "a"⟩

/-- The microservice's reconcile has listed the tenants when the tenant is deleted and torn down. -/
def raced : Pool Bool Outcome :=
  (ofRequests {} racers (Matrix.declared.answer (.create .tenant (Matrix.bareTenant "a"))).2).exec
    ([.run false, .run false] ++ .call (.delete .tenant (.inSpace "dc1" "a")) ::
      (List.replicate 4 (.run true) ++ List.replicate 24 (.run false)))

theorem find?_shared_raced :
    raced.store.find? .configMap (Bundle.tenantKey "dc1" "a") = none ∧
      raced.store.find? .ingress (Routing.tableKey "dc1" "a") = none := by
  have hs := Matrix.reached_declared.call (.create .tenant (Matrix.bareTenant "a"))
  have hok : ∀ i, ∃ o, raced.runs i = .done (.ok o) := by
    intro i
    cases i with
    | false => exact ⟨.converged, rfl⟩
    | true => exact ⟨.tornDown, rfl⟩
  have hafter : ∀ c : Call, .call c ∉
      List.replicate 4 (Event.run true) ++ List.replicate 24 (Event.run false) := by simp
  exact find?_shared_of_deleted {} racers hs (j := true) rfl (by simp)
    (fun c hc => absurd hc (hafter c)) rfl hok

end Pool
end TenantOperator
