import TenantOperator.Settings
import TenantOperator.Store.Upsert
import TenantOperator.Tenancy.Resolved

/-! Routing tables: one Ingress per tenant with one path per functional area. A table is always
computed from all pairings of the tenant and written in one piece. -/
namespace TenantOperator
namespace Routing

def regexAnnotation : String := "nginx.ingress.kubernetes.io/use-regex"
def targetAnnotation : String := "nginx.ingress.kubernetes.io/rewrite-target"
def pathType : String := "ImplementationSpecific"

def tableKey (inst tenant : String) : Key := .inSpace inst (Naming.routingTable inst tenant)

/-- Backing service of each path; of two pairings in one area the first keeps the path. -/
def rules (inst tenant : String) (pairings : List ResolvedPairing) : SortedMap String String :=
  pairings.foldl (fun m p =>
    let path := Naming.routingPath inst tenant p.area
    if m.contains path then m else m.insert path p.name) ∅

def routePath (path service : String) : RoutePath where
  path := some path
  pathType := pathType
  backend :=
    { service := some { name := service, port := some { number := some Naming.servicePort } } }

def ofRules (inst tenant : String) (ingressClass : Option String) (m : SortedMap String String) :
    Ingress where
  metadata :=
    { name := some (Naming.routingTable inst tenant)
      ns := some inst
      labels := some ((Naming.tenantSelector tenant).insert Naming.managedByLabel Naming.manager)
      annotations := some ((SortedMap.singleton regexAnnotation "true").insert targetAnnotation
        Naming.forwardedPath) }
  content :=
    { spec := some
        { ingressClassName := ingressClass
          rules := some
            [{ http := some (m.entries.map fun (path, service) => routePath path service) }] } }

/-- The table of a tenant's pairings, none when there is nothing to route. -/
def build (inst tenant : String) (pairings : List ResolvedPairing) (ingressClass : Option String) :
    Option Ingress :=
  let m := rules inst tenant pairings
  if m.isEmpty then none else some (ofRules inst tenant ingressClass m)

/-- A stored table that needs no writing, whatever the cluster reports of it. -/
def isCurrent (stored wanted : Ingress) : Bool :=
  stored.content.spec = wanted.content.spec && stored.metadata.labels = wanted.metadata.labels
    && stored.metadata.annotations = wanted.metadata.annotations

def delete (inst tenant : String) : Program WriteOutcome := do
  if ← Program.delete .ingress (tableKey inst tenant) then return .deleted else return .unchanged

/-- The wanted table over what is stored, or nothing if that is current. -/
def replace (wanted : Ingress) : Option Ingress → Option Ingress
  | some stored => if isCurrent stored wanted then none else some wanted
  | none => some wanted

/-- Computes the tenant's table anew and stores it; an empty one is deleted. -/
def rebuild (st : Settings) (inst tenant : String) : Program WriteOutcome := do
  let pairings ← resolveForTenant inst tenant
  match build inst tenant pairings st.ingressClass with
  | none => delete inst tenant
  | some wanted => upsert (tableKey inst tenant) st.writeAttempts (replace wanted)

end Routing
end TenantOperator
