import TenantOperator.Tenancy.Matrix
import TenantOperator.Tenancy.Teardown
import TenantOperator.Tenancy.Workload

/-! Reconciling one entity: if it exists, what derives from it is brought about; if it is gone, what
it left is cleared away. -/
namespace TenantOperator

/-- Kinds of entities that are reconciled, in the order their watchers start. -/
inductive EntityKind where
  | inst | tenant | microservice | pairing
  deriving DecidableEq

namespace EntityKind

def all : List EntityKind := [inst, tenant, microservice, pairing]

def kind : EntityKind → Kind
  | inst => .inst
  | tenant => .tenant
  | microservice => .microservice
  | pairing => .pairing

def name (e : EntityKind) : String := e.kind.name

def index : EntityKind → Nat
  | inst => 0
  | tenant => 1
  | microservice => 2
  | pairing => 3

instance : Ord EntityKind := ⟨compareOn index⟩

end EntityKind

structure ReconcileRequest where
  kind : EntityKind
  key : Key
  deriving DecidableEq

namespace ReconcileRequest

def text (r : ReconcileRequest) : String := r.kind.name ++ " " ++ r.key.text

/-- Requests are ordered by kind, then by name, then by namespace with none first. -/
instance : Ord ReconcileRequest :=
  ⟨compareLex (compareOn kind) (compareLex (compareOn (·.key.name)) (compareOn (·.key.ns)))⟩

def insertOrdered (r : ReconcileRequest) : List ReconcileRequest → List ReconcileRequest
  | [] => [r]
  | q :: l =>
    match compare r q with
    | .lt => r :: q :: l
    | .eq => q :: l
    | .gt => q :: insertOrdered r l

/-- In order, each request once. -/
def sorted (l : List ReconcileRequest) : List ReconcileRequest := l.foldr insertOrdered []

end ReconcileRequest

inductive Outcome where
  /-- The entity exists and what derives from it is in place. -/
  | converged
  /-- The entity is gone and what it left is cleared away. -/
  | tornDown
  | ignored
  deriving DecidableEq

def Outcome.name : Outcome → String
  | converged => "Converged"
  | tornDown => "TornDown"
  | ignored => "Ignored"

namespace Reconcile

/-- Namespace of an instance, marked as written by the operator. -/
def space (inst : String) : Space where
  metadata := { name := some inst, labels := some Naming.managerLabels }
  content := []

/-- Deleted instances are left alone. -/
def inst (key : Key) : Program Outcome := do
  match ← Program.get .inst key with
  | none => return .ignored
  | some i =>
    .ofExcept i.content.validate
    let _ ← ensureCreated (space key.name)
    match ← Program.get .configMap (Bundle.instanceKey key.name) with
    | some _ => return .converged
    | none =>
      let template ← getRequired .instTemplate (.clusterWide i.content.configurationId)
      let _ ← Bundle.ensureInstance key.name template.content.configuration
      return .converged

def tenant (st : Settings) (ns : String) (key : Key) : Program Outcome := do
  match ← Program.get .tenant key with
  | some t =>
    let _ ← Matrix.resolveTenant t
    return .converged
  | none =>
    Teardown.tenant st ns key.name
    return .tornDown

def tenants (st : Settings) (ns : String) : List Tenant → Program Unit
  | [] => return ()
  | t :: ts => do
    let _ ← Matrix.resolveTenant t
    let _ ← Teardown.syncTenant st ns t.name
    tenants st ns ts

def microservice (st : Settings) (ns : String) (key : Key) : Program Outcome := do
  match ← Program.get .microservice key with
  | none =>
    Teardown.microservice st ns key.name
    return .tornDown
  | some m =>
    .ofExcept m.content.validate
    tenants st ns (← Program.list .tenant (some ns) ∅)
    return .converged

/-- Children, bundle entry and path of a live pairing, in this order. The tenant is looked up
before anything is written and again after the last write. -/
def pairing (st : Settings) (ns : String) (key : Key) : Program Outcome := do
  match ← Program.get .pairing key with
  | none =>
    Teardown.pairing st ns key.name none
    return .tornDown
  | some p =>
    .ofExcept p.content.validate
    let tenantId := p.content.tenantId
    let microserviceId := p.content.microserviceId
    let _ ← Workload.parent .tenant (.inSpace ns tenantId) (Workload.missingTenant p.name tenantId)
    let _ ← Workload.synthesize p
    let m ← Workload.parent .microservice (.inSpace ns microserviceId)
      (Workload.missingMicroservice p.name microserviceId)
    let _ ← Bundle.applyEntry st ns tenantId m.content.functionalArea p.content.configuration
    let _ ← Routing.rebuild st ns tenantId
    if ← Teardown.discardIfTenantGone ns tenantId then return .tornDown else return .converged

/-- A request for a namespaced entity names its namespace. -/
def inSpace (r : ReconcileRequest) (f : String → Program Outcome) : Program Outcome :=
  match r.key.ns with
  | some ns => f ns
  | none => .fail (.invariant (r.kind.name ++ " " ++ r.key.name ++ " has no namespace"))

end Reconcile

def reconcile (st : Settings) (r : ReconcileRequest) : Program Outcome :=
  match r.kind with
  | .inst => Reconcile.inst r.key
  | .tenant => Reconcile.inSpace r fun ns => Reconcile.tenant st ns r.key
  | .microservice => Reconcile.inSpace r fun ns => Reconcile.microservice st ns r.key
  | .pairing => Reconcile.inSpace r fun ns => Reconcile.pairing st ns r.key

end TenantOperator
