import TenantOperator.Proofs.Tenancy.Bundle

/-! Routing tables. A rebuild puts the wanted table into its slot, or clears the slot when nothing
is to be routed, and finds it current when it runs again. -/
namespace TenantOperator
namespace Routing
open Program

theorem key_of_build {inst tenant : String} {pairings : List ResolvedPairing}
    {ingressClass : Option String} {wanted : Ingress}
    (h : build inst tenant pairings ingressClass = some wanted) :
    wanted.key = tableKey inst tenant ∧
      wanted.metadata.name = some (Naming.routingTable inst tenant) := by
  simp only [build] at h
  split at h
  · cases h
  · cases h
    exact ⟨rfl, rfl⟩

theorem replace_eq_some {wanted table : Ingress} {current : Option Ingress}
    (h : replace wanted current = some table) : table = wanted := by
  cases current with
  | none => exact (Option.some.inj h).symm
  | some stored =>
    simp only [replace] at h
    split at h
    · cases h
    · exact (Option.some.inj h).symm

theorem replace_wanted (wanted : Ingress) (v : Option String) :
    replace wanted (some (wanted.withVersion v)) = none := by
  simp [replace, isCurrent, Resource.withVersion]

theorem replace_upserted (s : Store) (key : Key) (wanted : Ingress) :
    replace wanted ((s.upserted key (replace wanted)).find? .ingress key) = none := by
  rw [Store.find?_upserted]
  cases hc : replace wanted (s.find? .ingress key) with
  | none => exact hc
  | some table =>
    rw [replace_eq_some hc]
    exact replace_wanted wanted _

theorem fits_replace {inst tenant : String} {pairings : List ResolvedPairing}
    {ingressClass : Option String} {wanted : Ingress}
    (h : build inst tenant pairings ingressClass = some wanted) :
    Upsert.Fits (tableKey inst tenant) (replace wanted) := by
  obtain ⟨hk, hn⟩ := key_of_build h
  intro current table _ hr
  rw [replace_eq_some hr, hn]
  exact ⟨hk, fun _ => rfl⟩

section run
variable (st : Settings) (s : Store) (ns tenant : String)

def rebuilt : Store :=
  match build ns tenant (s.resolved ns tenant) st.ingressClass with
  | none => s.remove .ingress (tableKey ns tenant)
  | some wanted => s.upserted (tableKey ns tenant) (replace wanted)

def rebuildOutcome : WriteOutcome :=
  match build ns tenant (s.resolved ns tenant) st.ingressClass with
  | none => if (s.find? .ingress (tableKey ns tenant)).isSome then .deleted else .unchanged
  | some wanted => Upsert.outcome (replace wanted) (s.find? .ingress (tableKey ns tenant))

/-- The stored table, or its absence, is the wanted one. -/
def Current : Prop :=
  match build ns tenant (s.resolved ns tenant) st.ingressClass with
  | none => s.find? .ingress (tableKey ns tenant) = none
  | some wanted => replace wanted (s.find? .ingress (tableKey ns tenant)) = none

variable {s}

theorem run_delete (hs : s.Calm) :
    (delete ns tenant).run s =
      (.ok (if (s.find? .ingress (tableKey ns tenant)).isSome then .deleted else .unchanged),
        s.remove .ingress (tableKey ns tenant)) := by
  rw [delete, run_bind_of_ok (hs.run_delete ..)]
  cases s.find? .ingress (tableKey ns tenant) <;> rfl

theorem run_rebuild (hs : s.Calm) :
    (rebuild st ns tenant).run s =
      (.ok (rebuildOutcome st s ns tenant), rebuilt st s ns tenant) := by
  rw [rebuild, run_bind_of_ok (hs.run_resolveForTenant ns tenant), rebuildOutcome, rebuilt]
  cases h : build ns tenant (s.resolved ns tenant) st.ingressClass with
  | none => exact run_delete ns tenant hs
  | some wanted => exact hs.run_upsert _ _ (fits_replace h)

theorem agreeOff_rebuilt (s : Store) :
    Store.AgreeOff (fun k key => k = .ingress ∧ key = tableKey ns tenant) s
      (rebuilt st s ns tenant) := by
  unfold rebuilt
  split
  · exact s.agreeOff_remove _ _
  · exact s.agreeOff_upserted _ _

theorem calm_rebuilt (hs : s.Calm) : (rebuilt st s ns tenant).Calm := by
  unfold rebuilt
  split
  · exact hs.remove _ _
  · rename_i wanted h
    exact hs.upserted_of_fits (fits_replace h)

theorem current_rebuilt (s : Store) : Current st (rebuilt st s ns tenant) ns tenant := by
  have hr : (rebuilt st s ns tenant).resolved ns tenant = s.resolved ns tenant :=
    (agreeOff_rebuilt st ns tenant s).resolved_eq (by simp) (by simp)
  rw [Current, hr, rebuilt]
  cases build ns tenant (s.resolved ns tenant) st.ingressClass with
  | none => exact s.find?_remove_self ..
  | some wanted => exact replace_upserted s _ wanted

theorem rebuilt_of_current (h : Current st s ns tenant) : rebuilt st s ns tenant = s := by
  unfold rebuilt
  unfold Current at h
  split
  · rename_i hb
    rw [hb] at h
    exact Store.remove_of_find?_eq_none h
  · rename_i wanted hb
    rw [hb] at h
    exact Store.upserted_of_none h

theorem Current.congr {s' : Store} (h : Current st s ns tenant)
    (hr : s'.resolved ns tenant = s.resolved ns tenant)
    (ht : s'.find? .ingress (tableKey ns tenant) = s.find? .ingress (tableKey ns tenant)) :
    Current st s' ns tenant := by
  rw [Current, hr, ht]
  exact h

end run

section paths
variable {ns tenant : String}

theorem build_eq {ps : List ResolvedPairing} {cls : Option String} :
    build ns tenant ps cls = if (rules ns tenant ps).isEmpty then none
      else some (ofRules ns tenant cls (rules ns tenant ps)) := rfl

theorem isCurrent_iff {stored wanted : Ingress} : isCurrent stored wanted ↔
    stored.content.spec = wanted.content.spec ∧
      stored.metadata.labels = wanted.metadata.labels ∧
      stored.metadata.annotations = wanted.metadata.annotations := by
  simp only [isCurrent, Bool.and_eq_true, decide_eq_true_eq, and_assoc]

theorem replace_eq_none_iff {wanted : Ingress} {current : Option Ingress} :
    replace wanted current = none ↔ ∃ stored, current = some stored ∧ isCurrent stored wanted := by
  cases current <;> simp [replace]

theorem eq_of_replace_eq_none {wanted : Ingress} {current : Option Ingress}
    (h : replace wanted current = none) :
    ∃ stored, current = some stored ∧ stored.content.spec = wanted.content.spec := by
  obtain ⟨stored, hs, hc⟩ := replace_eq_none_iff.1 h
  exact ⟨stored, hs, (isCurrent_iff.1 hc).1⟩

theorem eq_empty_of_isEmpty {m : SortedMap String String} (h : m.isEmpty) : m = ∅ :=
  SortedMap.ext (List.isEmpty_iff.1 h)

theorem find?_keep (m : SortedMap String String) (path service path' : String) :
    (if m.contains path then m else m.insert path service).find? path' =
      (m.find? path').or (if path = path' then some service else none) := by
  by_cases hp : path = path'
  · subst hp
    cases h : m.find? path <;> simp [SortedMap.contains, h]
  · split <;> simp [SortedMap.find?_insert_of_ne m (Ne.symm hp)]

/-- A path leads to the first pairing that it is the path of. -/
theorem find?_rules (ps : List ResolvedPairing) (path : String) :
    (rules ns tenant ps).find? path =
      (ps.find? fun p => Naming.routingPath ns tenant p.area = path).map (·.name) := by
  suffices ∀ m : SortedMap String String, (ps.foldl (fun m p =>
      let path := Naming.routingPath ns tenant p.area
      if m.contains path then m else m.insert path p.name) m).find? path =
        (m.find? path).or
          ((ps.find? fun p => Naming.routingPath ns tenant p.area = path).map (·.name)) by
    exact (this ∅).trans (Option.none_or)
  induction ps with
  | nil => simp
  | cons p ps ih =>
    intro m
    rw [List.foldl_cons, ih, find?_keep, Option.or_assoc, List.find?_cons]
    by_cases hp : Naming.routingPath ns tenant p.area = path <;> simp [hp]

theorem contains_rules {ps : List ResolvedPairing} {path : String} :
    (rules ns tenant ps).contains path ↔ ∃ p ∈ ps, Naming.routingPath ns tenant p.area = path := by
  rw [SortedMap.contains, find?_rules, Option.isSome_map, List.find?_isSome]
  simp

theorem isEmpty_rules {ps : List ResolvedPairing} : (rules ns tenant ps).isEmpty ↔ ps = [] := by
  constructor
  · intro h
    refine List.eq_nil_iff_forall_not_mem.2 fun p hp => ?_
    have hcontains : (rules ns tenant ps).contains (Naming.routingPath ns tenant p.area) :=
      contains_rules.2 ⟨p, hp, rfl⟩
    rw [eq_empty_of_isEmpty h] at hcontains
    cases hcontains
  · rintro rfl
    rfl

theorem build_eq_none_iff {ps : List ResolvedPairing} {cls : Option String} :
    build ns tenant ps cls = none ↔ ps = [] := by
  constructor
  · intro h
    rw [build_eq] at h
    split at h
    · exact isEmpty_rules.1 ‹_›
    · cases h
  · rintro rfl
    rfl

theorem build_of_ne_nil {ps : List ResolvedPairing} (h : ps ≠ []) (cls : Option String) :
    build ns tenant ps cls = some (ofRules ns tenant cls (rules ns tenant ps)) :=
  if_neg (mt isEmpty_rules.1 h)

/-- There is nothing to route and no table, or the stored one is the table of the pairings. -/
theorem current_iff {st : Settings} {s : Store} : Current st s ns tenant ↔
    s.resolved ns tenant = [] ∧ s.find? .ingress (tableKey ns tenant) = none ∨
    s.resolved ns tenant ≠ [] ∧ ∃ stored, s.find? .ingress (tableKey ns tenant) = some stored ∧
      isCurrent stored
        (ofRules ns tenant st.ingressClass (rules ns tenant (s.resolved ns tenant))) := by
  by_cases hnil : s.resolved ns tenant = []
  · rw [Current, build_eq_none_iff.2 hnil]
    simp [hnil]
  · rw [Current, build_of_ne_nil hnil]
    simp [hnil, replace_eq_none_iff]

def pathsOf (table : Ingress) : List String :=
  ((table.content.spec.bind (·.rules)).getD []).flatMap fun r => (r.http.getD []).filterMap (·.path)

theorem pathsOf_ofRules {cls : Option String} {m : SortedMap String String} :
    pathsOf (ofRules ns tenant cls m) = m.keys := by
  show (m.entries.map fun e => routePath e.1 e.2).filterMap (·.path) ++ [] = _
  rw [List.append_nil, List.filterMap_map]
  exact congrFun List.filterMap_eq_map m.entries

/-- Paths of the stored table of a tenant; a missing one has none. -/
def paths (s : Store) (ns tenant : String) : List String :=
  ((s.find? .ingress (tableKey ns tenant)).map pathsOf).getD []

theorem paths_congr {s s' : Store}
    (h : s'.find? .ingress (tableKey ns tenant) = s.find? .ingress (tableKey ns tenant)) :
    paths s' ns tenant = paths s ns tenant := by
  rw [paths, h, paths]

theorem paths_of_current {st : Settings} {s : Store} (h : Current st s ns tenant) :
    paths s ns tenant = (rules ns tenant (s.resolved ns tenant)).keys := by
  rcases current_iff.1 h with ⟨hnil, hnone⟩ | ⟨-, stored, hs, hcur⟩
  · rw [paths, hnone, hnil]
    rfl
  · rw [paths, hs, Option.map_some, Option.getD_some, pathsOf, (isCurrent_iff.1 hcur).1, ← pathsOf,
      pathsOf_ofRules]

theorem mem_paths_of_current {st : Settings} {s : Store} (h : Current st s ns tenant)
    {p : ResolvedPairing} (hp : p ∈ s.resolved ns tenant) :
    Naming.routingPath ns tenant p.area ∈ paths s ns tenant := by
  rw [paths_of_current h, ← SortedMap.contains_iff_mem_keys]
  exact contains_rules.2 ⟨p, hp, rfl⟩

end paths

theorem every_delete {Q : Call → Prop} (ns tenant : String)
    (hd : Q (.delete .ingress (tableKey ns tenant))) : (delete ns tenant).Every Q := by
  refine every_bind (every_perform hd) fun b => ?_
  cases b <;> trivial

theorem every_rebuild {Q : Call → Prop} (st : Settings) (ns tenant : String)
    (hread : ∀ c : Call, c.Reads → Q c) (hd : Q (.delete .ingress (tableKey ns tenant)))
    (hq : ∀ r : Ingress, r.key = tableKey ns tenant →
      Q (.create .ingress r) ∧ Q (.update .ingress r)) :
    (rebuild st ns tenant).Every Q := by
  refine every_bind ((reads_resolveForTenant ns tenant).mono hread) fun pairings => ?_
  split
  · exact every_delete ns tenant hd
  · rename_i wanted h
    refine every_upsert (hread _ (Call.reads_get _ _)) fun current r _ hr => ?_
    rw [replace_eq_some hr]
    have hk := (key_of_build h).1
    exact ⟨(hq wanted hk).1, fun v => (hq (wanted.withVersion v) hk).2⟩

end Routing
end TenantOperator
