import TenantOperator.Tenancy.Bundle
import TenantOperator.Tenancy.Routing

/-! Clearing away what a vanished entity left. Every step can be repeated after a failure. -/
namespace TenantOperator
namespace Teardown

/-- Deletes a tenant's bundle and routing table if the tenant is gone. It runs after every write
that may have made one of them, because the tenant's own teardown may have come in between. -/
def discardIfTenantGone (ns tenant : String) : Program Bool := do
  match ← Program.get .tenant (.inSpace ns tenant) with
  | some _ => return false
  | none =>
    let _ ← Bundle.deleteTenant ns tenant
    let _ ← Routing.delete ns tenant
    return true

/-- Brings a tenant's bundle and routing table in line with its live pairings; whether the tenant
still exists. -/
def syncTenant (st : Settings) (ns tenant : String) : Program Bool := do
  let pairings ← resolveForTenant ns tenant
  let _ ← Bundle.sync st ns tenant pairings
  let _ ← Routing.rebuild st ns tenant
  return !(← discardIfTenantGone ns tenant)

def tenantOf {k : Kind} (r : Resource k) : Option String :=
  r.metadata.labelMap.find? Naming.tenantLabel

/-- The tenant of a pairing, as its workload or its endpoint tells. -/
def pairingTenant (key : Key) : Program (Option String) := do
  let d ← Program.get .deployment key
  match d.bind tenantOf with
  | some t => return some t
  | none =>
    let s ← Program.get .service key
    return s.bind tenantOf

/-- Clears a pairing of a known tenant: bundle and routing table first, then the children. -/
def clearPairing (st : Settings) (ns name tenant : String) : Program Unit := do
  let key := Key.inSpace ns name
  let _ ← syncTenant st ns tenant
  let _ ← Program.delete .deployment key
  let _ ← Program.delete .service key
  return ()

/-- Clears a pairing; without a tenant given and without children there is nothing to do. -/
def pairing (st : Settings) (ns name : String) (tenant : Option String) : Program Unit := do
  match tenant with
  | some t => clearPairing st ns name t
  | none =>
    match ← pairingTenant (.inSpace ns name) with
    | some t => clearPairing st ns name t
    | none => return ()

def clearAll (st : Settings) (ns : String) : List Pairing → Program Unit
  | [] => return ()
  | p :: ps => do
    let _ ← Program.delete .pairing (.inSpace ns p.name)
    pairing st ns p.name (some p.content.tenantId)
    clearAll st ns ps

def pairings (st : Settings) (ns : String) (selector : Labels) : Program Unit := do
  clearAll st ns (← Program.list .pairing (some ns) selector)

/-- Everything of a tenant: its pairings with their children, its bundle, its routing table. -/
def tenant (st : Settings) (ns tenant : String) : Program Unit := do
  pairings st ns (Naming.tenantSelector tenant)
  let _ ← Bundle.deleteTenant ns tenant
  let _ ← Routing.delete ns tenant
  return ()

def microservice (st : Settings) (ns microservice : String) : Program Unit :=
  pairings st ns (Naming.microserviceSelector microservice)

end Teardown
end TenantOperator
