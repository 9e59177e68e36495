import TenantOperator.Settings
import TenantOperator.Store.Upsert
import TenantOperator.Tenancy.Resolved

/-! Configuration bundles. An instance's bundle holds one entry and is written once; a tenant's
bundle holds one entry per functional area and is shared by all pairings of the tenant. -/
namespace TenantOperator
namespace Bundle

def tenantKey (ns tenant : String) : Key := .inSpace ns (Naming.tenantBundle tenant)

def instanceKey (inst : String) : Key := .inSpace inst (Naming.instanceBundle inst)

def make (key : Key) (data : Labels) : ConfigMap where
  metadata := { name := some key.name, ns := key.ns, labels := some Naming.managerLabels }
  content := { data := some data }

def ofInstance (inst : String) (c : Configuration) : ConfigMap :=
  make (instanceKey inst) (.singleton Naming.instanceEntry (Configuration.entry c))

/-- Absent data is no data. -/
def data (cm : ConfigMap) : Labels := cm.content.data.getD ∅

def withData (cm : ConfigMap) (d : Labels) : ConfigMap :=
  { cm with content := { cm.content with data := some d } }

/-- An existing bundle stays as it is, even if the template changed since. -/
def ensureInstance (inst : String) (c : Configuration) : Program WriteOutcome := do
  if ← ensureCreated (ofInstance inst c) then return .created else return .unchanged

/-- The bundle with the entry of one area set, or nothing if it is set already. -/
def setEntry (key : Key) (area entry : String) (current : Option ConfigMap) : Option ConfigMap :=
  let cm := current.getD (make key ∅)
  if (data cm).find? area = some entry then none
  else some (withData cm ((data cm).insert area entry))

/-- Sets the entry of `area`; all other entries are kept. -/
def applyEntry (st : Settings) (ns tenant area : String) (c : Configuration) :
    Program WriteOutcome :=
  let key := tenantKey ns tenant
  upsert key st.writeAttempts (setEntry key area (Configuration.entry c))

/-- The entries that the pairings of each area stand for, in the order of the pairings. -/
def candidates (pairings : List ResolvedPairing) : SortedMap String (List String) :=
  pairings.foldl (fun m p => m.insert p.area ((m.find? p.area).getD [] ++ [p.entry])) ∅

/-- `d` restricted to the wanted areas, each with an entry of one of its candidates: the old one
where it still is one, else the first. -/
def merge (wanted : SortedMap String (List String)) (d : Labels) : Labels :=
  wanted.entries.foldl (fun d (area, entries) =>
      match d.find? area, entries with
      | some e, _ => if entries.contains e then d else d.insert area (entries.headD e)
      | none, e :: _ => d.insert area e
      | none, [] => d)
    (d.filter fun area _ => wanted.contains area)

def mergeInto (wanted : SortedMap String (List String)) : Option ConfigMap → Option ConfigMap
  | none => none
  | some cm =>
    let merged := merge wanted (data cm)
    if merged = data cm then none else some (withData cm merged)

/-- Brings an existing bundle in line with the tenant's live pairings; a missing one stays
missing. -/
def sync (st : Settings) (ns tenant : String) (pairings : List ResolvedPairing) :
    Program WriteOutcome :=
  upsert (tenantKey ns tenant) st.writeAttempts (mergeInto (candidates pairings))

def deleteTenant (ns tenant : String) : Program WriteOutcome := do
  if ← Program.delete .configMap (tenantKey ns tenant) then return .deleted else return .unchanged

end Bundle
end TenantOperator
