import TenantOperator.Store.Program

/-! The pairing matrix: every tenant is paired with every microservice of its instance. Names of
pairings are determined by the ids, so one that exists already is as good as one just made. -/
namespace TenantOperator
namespace Matrix

/-- The configuration that new pairings of a microservice get. -/
def templateConfiguration (m : Microservice) : Program Configuration := do
  let template ← getRequired .microserviceTemplate (.clusterWide m.content.configurationId)
  return template.content.configuration

/-- Pairs the tenant with each microservice in turn; the number of pairings made. -/
def pairAll (ns tenant : String) : List Microservice → Program Nat
  | [] => return 0
  | m :: ms => do
    let c ← templateConfiguration m
    let made ← ensureCreated (Pairing.forPair ns tenant m.name c)
    let rest ← pairAll ns tenant ms
    return (if made then 1 else 0) + rest

/-- Makes the missing pairings of a tenant. A failure ends the run, and pairings made before it
stay. -/
def resolveTenant (t : Tenant) : Program Nat := do
  match t.metadata.ns with
  | none => .fail (.invariant ("tenant " ++ t.name ++ " has no namespace"))
  | some ns =>
    let ms ← Program.list .microservice (some ns) ∅
    let pairings ← Program.list .pairing (some ns) (Naming.tenantSelector t.name)
    let paired := pairings.map (·.content.microserviceId)
    pairAll ns t.name (ms.filter fun m => !paired.contains m.name)

end Matrix
end TenantOperator
