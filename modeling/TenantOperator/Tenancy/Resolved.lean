import TenantOperator.Store.Program

/-! The pairings of a tenant with the functional areas of their microservices. -/
namespace TenantOperator

structure ResolvedPairing where
  pairing : Pairing
  area : String
  deriving DecidableEq

namespace ResolvedPairing

def name (p : ResolvedPairing) : String := p.pairing.name

def entry (p : ResolvedPairing) : String := Configuration.entry p.pairing.content.configuration

/-- `p` before the first pairing of a larger or equal name. -/
def insertByName (p : ResolvedPairing) : List ResolvedPairing → List ResolvedPairing
  | [] => [p]
  | q :: l => if compare p.name q.name = .gt then q :: insertByName p l else p :: q :: l

/-- In name order; pairings of one name keep their order. -/
def sortByName (l : List ResolvedPairing) : List ResolvedPairing := l.foldr insertByName []

/-- Looks up each microservice once, with `areas` holding the answers so far. -/
def lookUp (ns : String) : SortedMap String (Option String) → List Pairing →
    Program (List ResolvedPairing)
  | _, [] => return []
  | areas, p :: ps => do
    let id := p.content.microserviceId
    let areas ← match areas.find? id with
      | some _ => pure areas
      | none =>
        let m ← Program.get .microservice (.inSpace ns id)
        pure (areas.insert id (m.map (·.content.functionalArea)))
    let rest ← lookUp ns areas ps
    match areas.find? id with
    | some (some area) => return ⟨p, area⟩ :: rest
    | _ => return rest

end ResolvedPairing

/-- The tenant's pairings whose microservice exists, in name order. -/
def resolveForTenant (ns tenant : String) : Program (List ResolvedPairing) := do
  let pairings ← Program.list .pairing (some ns) (Naming.tenantSelector tenant)
  return ResolvedPairing.sortByName (← ResolvedPairing.lookUp ns ∅ pairings)

end TenantOperator
