import TenantOperator.Proofs.Store.Calm
import TenantOperator.Tenancy.Resolved

/-! The pairings of a tenant without the look-ups that find them: what `resolveForTenant` gives is a
function of the store. -/
namespace TenantOperator

namespace Store

/-- A pairing with the area of its microservice, while that exists. -/
def resolve? (s : Store) (ns : String) (p : Pairing) : Option ResolvedPairing :=
  (s.find? .microservice (.inSpace ns p.content.microserviceId)).map fun m =>
    ⟨p, m.content.functionalArea⟩

theorem pairing_of_resolve? {s : Store} {ns : String} {p : Pairing} {q : ResolvedPairing}
    (h : s.resolve? ns p = some q) : q.pairing = p := by
  obtain ⟨m, -, rfl⟩ := Option.map_eq_some_iff.1 h
  rfl

def resolved (s : Store) (ns tenant : String) : List ResolvedPairing :=
  ResolvedPairing.sortByName
    ((s.select .pairing (some ns) (Naming.tenantSelector tenant)).filterMap (s.resolve? ns))

/-- The tenant's pairings and the microservices of its namespace are all that matters. -/
theorem resolved_congr {s s' : Store} {ns tenant : String}
    (hm : ∀ id, s'.find? .microservice (.inSpace ns id) = s.find? .microservice (.inSpace ns id))
    (hp : ∀ key p, picks (some ns) (Naming.tenantSelector tenant) key p →
      (s'.find? .pairing key = some p ↔ s.find? .pairing key = some p)) :
    s'.resolved ns tenant = s.resolved ns tenant := by
  have hr : s'.resolve? ns = s.resolve? ns := by
    funext p
    rw [resolve?, resolve?, hm]
  rw [resolved, resolved, hr, select_congr hp]

theorem AgreeOff.resolved_eq {P : Kind → Key → Prop} {s s' : Store} (h : AgreeOff P s s')
    {ns tenant : String} (hp : ∀ key, ¬P .pairing key) (hm : ∀ key, ¬P .microservice key) :
    s'.resolved ns tenant = s.resolved ns tenant :=
  resolved_congr (fun id => h _ _ (hm _)) fun key p _ => by rw [h _ _ (hp key)]

end Store

open Program

namespace ResolvedPairing

/-- The answers so far with the one for `id`, which is asked for at most once. -/
def remember (ns : String) (areas : SortedMap String (Option String)) (id : String) :
    Program (SortedMap String (Option String)) :=
  match areas.find? id with
  | some _ => pure areas
  | none => Program.get .microservice (.inSpace ns id) >>= fun m =>
    pure (areas.insert id (m.map fun m => m.content.functionalArea))

theorem lookUp_cons (ns : String) (areas : SortedMap String (Option String)) (p : Pairing)
    (ps : List Pairing) :
    lookUp ns areas (p :: ps) = remember ns areas p.content.microserviceId >>= fun areas =>
      lookUp ns areas ps >>= fun rest =>
        match areas.find? p.content.microserviceId with
        | some (some area) => pure (⟨p, area⟩ :: rest)
        | _ => pure rest := by
  rw [lookUp, remember]
  cases areas.find? p.content.microserviceId with
  | some area => rfl
  | none => exact (Program.bind_assoc ..).symm

/-- What the cache holds is what the store has. -/
def Remembers (s : Store) (ns : String) (areas : SortedMap String (Option String)) : Prop :=
  ∀ id area, areas.find? id = some area →
    (s.find? .microservice (.inSpace ns id)).map (fun m => m.content.functionalArea) = area

theorem run_remember {s : Store} (hs : s.Calm) {ns : String}
    {areas : SortedMap String (Option String)} (ha : Remembers s ns areas) (id : String) :
    ∃ areas', (remember ns areas id).Rests s areas' ∧ Remembers s ns areas' ∧
      areas'.find? id =
        some ((s.find? .microservice (.inSpace ns id)).map fun m => m.content.functionalArea) := by
  rw [remember]
  cases hc : areas.find? id with
  | some area => exact ⟨areas, rfl, ha, by rw [hc, ha id area hc]⟩
  | none =>
    refine ⟨_, Rests.bind (hs.run_get _) rfl, ?_, SortedMap.find?_insert_self ..⟩
    intro id' area h
    by_cases hid : id' = id
    · subst hid
      rw [SortedMap.find?_insert_self] at h
      exact Option.some.inj h
    · rw [SortedMap.find?_insert_of_ne _ hid] at h
      exact ha id' area h

theorem run_lookUp {s : Store} (hs : s.Calm) (ns : String) (ps : List Pairing)
    {areas : SortedMap String (Option String)} (ha : Remembers s ns areas) :
    (lookUp ns areas ps).Rests s (ps.filterMap (s.resolve? ns)) := by
  induction ps generalizing areas with
  | nil => rfl
  | cons p ps ih =>
    obtain ⟨areas', hr, ha', hid⟩ := run_remember hs ha p.content.microserviceId
    rw [lookUp_cons]
    refine Rests.bind hr (Rests.bind (ih ha') ?_)
    rw [hid, List.filterMap_cons, Store.resolve?]
    cases s.find? .microservice (.inSpace ns p.content.microserviceId) <;> rfl

theorem reads_lookUp (ns : String) (ps : List Pairing) (areas : SortedMap String (Option String)) :
    (lookUp ns areas ps).Every Call.Reads := by
  induction ps generalizing areas with
  | nil => trivial
  | cons p ps ih =>
    rw [lookUp_cons]
    refine every_bind ?_ fun areas' => every_bind (ih areas') fun rest => ?_
    · rw [remember]
      split
      · trivial
      · exact every_bind (every_perform (Call.reads_get _ _)) fun _ => trivial
    · split <;> trivial

end ResolvedPairing

theorem reads_resolveForTenant (ns tenant : String) :
    (resolveForTenant ns tenant).Every Call.Reads :=
  every_bind (every_perform (Call.reads_list _ _ _)) fun ps =>
    every_bind (ResolvedPairing.reads_lookUp ns ps ∅) fun _ => trivial

theorem Store.Calm.run_resolveForTenant {s : Store} (hs : s.Calm) (ns tenant : String) :
    (resolveForTenant ns tenant).Rests s (s.resolved ns tenant) :=
  Rests.bind (hs.run_list ..) <|
    Rests.bind (ResolvedPairing.run_lookUp hs ns _ fun _ _ h => by simp at h) rfl

end TenantOperator
