import TenantOperator.Proofs.Store.Footprint
import TenantOperator.Tenancy.Reconcile

/-! Reconciles by their steps. What holds of each step and is kept by putting programs one after the
other holds of every reconcile. -/
namespace TenantOperator
open Program

theorem reads_get (k : Kind) (key : Key) : (Program.get k key).Every Call.Reads :=
  every_perform (Call.reads_get k key)

theorem reads_list (k : Kind) (ns : Option String) (labels : Labels) :
    (Program.list k ns labels).Every Call.Reads :=
  every_perform (Call.reads_list k ns labels)

theorem reads_parent (k : Kind) (key : Key) (e : Error) :
    (Workload.parent k key e).Every Call.Reads := by
  refine every_bind (reads_get k key) fun r => ?_
  cases r <;> trivial

theorem reads_pairingTenant (key : Key) : (Teardown.pairingTenant key).Every Call.Reads := by
  refine every_bind (reads_get ..) fun d => ?_
  split
  · trivial
  · exact every_bind (reads_get ..) fun _ => trivial

theorem reads_getRequired (k : Kind) (key : Key) : (getRequired k key).Every Call.Reads := by
  refine every_bind (reads_get k key) fun r => ?_
  cases r <;> trivial

namespace Reconcile

def publish (st : Settings) (ns tenant area : String) (c : Configuration) : Program Bool := do
  let _ ← Bundle.applyEntry st ns tenant area c
  let _ ← Routing.rebuild st ns tenant
  Teardown.discardIfTenantGone ns tenant

/-- What the reconcile of a pairing does with a pairing that is there. -/
def live (st : Settings) (ns : String) (p : Pairing) : Program Outcome := do
  .ofExcept p.content.validate
  let tenantId := p.content.tenantId
  let microserviceId := p.content.microserviceId
  let _ ← Workload.parent .tenant (.inSpace ns tenantId) (Workload.missingTenant p.name tenantId)
  let _ ← Workload.synthesize p
  let m ← Workload.parent .microservice (.inSpace ns microserviceId)
    (Workload.missingMicroservice p.name microserviceId)
  let _ ← Bundle.applyEntry st ns tenantId m.content.functionalArea p.content.configuration
  let _ ← Routing.rebuild st ns tenantId
  if ← Teardown.discardIfTenantGone ns tenantId then return .tornDown else return .converged

/-- What follows the children of a pairing. -/
def announce (st : Settings) (ns : String) (p : Pairing) : Program Outcome := do
  let m ← Workload.parent .microservice (.inSpace ns p.content.microserviceId)
    (Workload.missingMicroservice p.name p.content.microserviceId)
  let gone ← publish st ns p.content.tenantId m.content.functionalArea p.content.configuration
  if gone then return .tornDown else return .converged

theorem live_eq (st : Settings) (ns : String) (p : Pairing) : live st ns p =
    Program.ofExcept p.content.validate >>= fun _ =>
      Workload.parent .tenant (.inSpace ns p.content.tenantId)
        (Workload.missingTenant p.name p.content.tenantId) >>= fun _ =>
      Workload.synthesize p >>= fun _ => announce st ns p := by
  simp only [live, announce, publish, Program.bind_assoc]

theorem pairing_eq (st : Settings) (ns : String) (key : Key) :
    pairing st ns key = Program.get .pairing key >>= fun
      | none => do
        Teardown.pairing st ns key.name none
        return .tornDown
      | some p => live st ns p := rfl

/-- A predicate that holds of the steps of reconciles other than the making of pairings, and is kept
by sequencing. -/
structure Chores (st : Settings) (T : (α : Type) → Program α → Prop) : Prop where
  done {α : Type} (r : Except Error α) : T α (.done r)
  bind {α β : Type} {p : Program α} {f : α → Program β} :
    T α p → (∀ a, T β (f a)) → T β (p >>= f)
  read {c : Call} : c.Reads → T _ (perform c)
  delete (k : Kind) (key : Key) : T _ (Program.delete k key)
  makeService (i : Instance) (t : Tenant) (m : Microservice) :
    T _ (ensureCreated (Workload.service i t m))
  makeDeployment (i : Instance) (t : Tenant) (m : Microservice) :
    T _ (ensureCreated (Workload.deployment i t m))
  makeSpace (i : String) : T _ (ensureCreated (space i))
  makeBundle (i : String) (c : Configuration) : T _ (ensureCreated (Bundle.ofInstance i c))
  sync (ns tenant : String) : T _ (Teardown.syncTenant st ns tenant)
  publish (ns tenant area : String) (c : Configuration) : T _ (publish st ns tenant area c)

namespace Chores
variable {st : Settings} {T : (α : Type) → Program α → Prop} (h : Chores st T)
include h

theorem get (k : Kind) (key : Key) : T _ (Program.get k key) := h.read (Call.reads_get k key)

theorem list (k : Kind) (ns : Option String) (labels : Labels) : T _ (Program.list k ns labels) :=
  h.read (Call.reads_list k ns labels)

theorem getRequired (k : Kind) (key : Key) : T _ (TenantOperator.getRequired k key) := by
  refine h.bind (h.get k key) fun r => ?_
  cases r <;> exact h.done _

theorem parent (k : Kind) (key : Key) (e : Error) : T _ (Workload.parent k key e) := by
  refine h.bind (h.get k key) fun r => ?_
  cases r <;> exact h.done _

theorem deleteTenant (ns tenant : String) : T _ (Bundle.deleteTenant ns tenant) := by
  refine h.bind (h.delete ..) fun b => ?_
  cases b <;> exact h.done _

theorem deleteTable (ns tenant : String) : T _ (Routing.delete ns tenant) := by
  refine h.bind (h.delete ..) fun b => ?_
  cases b <;> exact h.done _

theorem pairAll {ns tenant : String}
    (hm : ∀ m c, T _ (ensureCreated (Pairing.forPair ns tenant m c))) (ms : List Microservice) :
    T _ (Matrix.pairAll ns tenant ms) := by
  induction ms with
  | nil => exact h.done _
  | cons m ms ih =>
    refine h.bind ?_ fun c => h.bind (hm m.name c) fun _ => h.bind ih fun _ => h.done _
    exact h.bind (h.getRequired ..) fun _ => h.done _

theorem resolveTenant {t : Tenant} (hm : ∀ ns, t.metadata.ns = some ns →
    ∀ m c, T _ (ensureCreated (Pairing.forPair ns t.name m c))) : T _ (Matrix.resolveTenant t) := by
  unfold Matrix.resolveTenant
  split
  · exact h.done _
  · rename_i ns hns
    exact h.bind (h.list ..) fun _ => h.bind (h.list ..) fun _ => h.pairAll (hm ns hns) _

theorem synthesize (p : Pairing) : T _ (Workload.synthesize p) := by
  unfold Workload.synthesize
  split
  · exact h.done _
  · refine h.bind (h.get ..) fun d => ?_
    cases d with
    | some d => exact h.done _
    | none =>
      exact h.bind (h.parent ..) fun t => h.bind (h.parent ..) fun m =>
        h.bind (h.parent ..) fun i => h.bind (h.makeService i t m) fun _ =>
        h.bind (h.makeDeployment i t m) fun _ => h.done _

theorem clearPairing (ns name tenant : String) : T _ (Teardown.clearPairing st ns name tenant) :=
  h.bind (h.sync ns tenant) fun _ => h.bind (h.delete ..) fun _ => h.bind (h.delete ..) fun _ =>
    h.done _

theorem pairingTenant (key : Key) : T _ (Teardown.pairingTenant key) := by
  refine h.bind (h.get ..) fun d => ?_
  split
  · exact h.done _
  · exact h.bind (h.get ..) fun _ => h.done _

theorem clear (ns name : String) (tenant : Option String) :
    T _ (Teardown.pairing st ns name tenant) := by
  cases tenant with
  | some t => exact h.clearPairing ns name t
  | none =>
    refine h.bind (h.pairingTenant _) fun t => ?_
    cases t with
    | some t => exact h.clearPairing ns name t
    | none => exact h.done _

theorem clearAll (ns : String) (ps : List Pairing) : T _ (Teardown.clearAll st ns ps) := by
  induction ps with
  | nil => exact h.done _
  | cons p ps ih => exact h.bind (h.delete ..) fun _ => h.bind (h.clear ..) fun _ => ih

theorem pairings (ns : String) (selector : Labels) : T _ (Teardown.pairings st ns selector) :=
  h.bind (h.list ..) fun _ => h.clearAll ..

theorem clearTenant (ns tenant : String) : T _ (Teardown.tenant st ns tenant) :=
  h.bind (h.pairings ..) fun _ => h.bind (h.deleteTenant ..) fun _ =>
    h.bind (h.deleteTable ..) fun _ => h.done _

theorem inst (key : Key) : T _ (Reconcile.inst key) := by
  refine h.bind (h.get ..) fun i => ?_
  cases i with
  | none => exact h.done _
  | some i =>
    refine h.bind (h.done _) fun _ => h.bind (h.makeSpace _) fun _ => h.bind (h.get ..) fun cm => ?_
    cases cm with
    | some cm => exact h.done _
    | none =>
      refine h.bind (h.getRequired ..) fun t => h.bind ?_ fun _ => h.done _
      refine h.bind (h.makeBundle ..) fun b => ?_
      cases b <;> exact h.done _

theorem pairing (ns : String) (key : Key) : T _ (Reconcile.pairing st ns key) := by
  refine h.bind (h.get ..) fun p => ?_
  cases p with
  | none => exact h.bind (h.clear ..) fun _ => h.done _
  | some p =>
    show T _ (live st ns p)
    rw [live_eq]
    refine h.bind (h.done _) fun _ => h.bind (h.parent ..) fun _ => h.bind (h.synthesize p) fun _ =>
      h.bind (h.parent ..) fun m => h.bind (h.publish ..) fun gone => ?_
    cases gone <;> exact h.done _

end Chores

/-- A predicate that holds of all steps of reconciles and is kept by sequencing. -/
structure Steps (st : Settings) (T : (α : Type) → Program α → Prop) : Prop extends Chores st T where
  makePairing (ns tenant m : String) (c : Configuration) :
    T _ (ensureCreated (Pairing.forPair ns tenant m c))

namespace Steps
variable {st : Settings} {T : (α : Type) → Program α → Prop} (h : Steps st T)
include h

theorem resolve (t : Tenant) : T _ (Matrix.resolveTenant t) :=
  h.resolveTenant fun ns _ m c => h.makePairing ns t.name m c

theorem tenant (ns : String) (key : Key) : T _ (Reconcile.tenant st ns key) := by
  refine h.bind (h.get ..) fun t => ?_
  cases t with
  | some t => exact h.bind (h.resolve t) fun _ => h.done _
  | none => exact h.bind (h.clearTenant ..) fun _ => h.done _

theorem tenants (ns : String) (ts : List Tenant) : T _ (Reconcile.tenants st ns ts) := by
  induction ts with
  | nil => exact h.done _
  | cons t ts ih => exact h.bind (h.resolve t) fun _ => h.bind (h.sync ..) fun _ => ih

theorem microservice (ns : String) (key : Key) : T _ (Reconcile.microservice st ns key) := by
  refine h.bind (h.get ..) fun m => ?_
  cases m with
  | none => exact h.bind (h.pairings ..) fun _ => h.done _
  | some m =>
    exact h.bind (h.done _) fun _ => h.bind (h.list ..) fun ts => h.bind (h.tenants ns ts) fun _ =>
      h.done _

theorem reconcile (r : ReconcileRequest) : T _ (TenantOperator.reconcile st r) := by
  obtain ⟨kind, name, ns⟩ := r
  cases kind with
  | inst => exact h.inst _
  | tenant =>
    cases ns with
    | none => exact h.done _
    | some ns => exact h.tenant ns _
  | microservice =>
    cases ns with
    | none => exact h.done _
    | some ns => exact h.microservice ns _
  | pairing =>
    cases ns with
    | none => exact h.done _
    | some ns => exact h.pairing ns _

end Steps
end Reconcile
end TenantOperator
