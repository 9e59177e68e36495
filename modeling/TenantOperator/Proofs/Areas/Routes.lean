import Mathlib.Data.List.Dedup
import Mathlib.Data.String.Basic
import TenantOperator.Proofs.Areas.Merged
import TenantOperator.Proofs.Areas.Rederived

/-! Which routes a table has, and which table a rebuild stores. Different areas have different
paths, so a table has one route for each area, to the first pairing of the area. A rebuild stores
that table, whatever was stored before. -/
namespace TenantOperator
namespace Routing
open Program Store

section routes
variable {inst tenant area path : String} {ps qs : List ResolvedPairing}

def routesOf (table : Ingress) : List (Option String × Option String) :=
  ((table.content.spec.bind (·.rules)).getD []).flatMap fun r =>
    (r.http.getD []).map fun p => (p.path, p.backend.service.map (·.name))

theorem routesOf_ofRules {cls : Option String} {m : SortedMap String String} :
    routesOf (ofRules inst tenant cls m) = m.entries.map fun r => (some r.1, some r.2) := by
  simp [routesOf, ofRules, routePath]

/-- The routes of pairings: in the order of the paths, one for each area, to the first pairing of
the area. -/
structure Routes (inst tenant : String) (ps : List ResolvedPairing)
    (routes : List (String × String)) : Prop where
  increasing : (routes.map (·.1)).Pairwise (· < ·)
  length : routes.length = (ps.map (·.area)).dedup.length
  first : ∀ area ∈ ps.map (·.area), ∃ p, ps.find? (·.area = area) = some p ∧
    (Naming.routingPath inst tenant area, p.name) ∈ routes
  only : ∀ r ∈ routes, ∃ area ∈ ps.map (·.area), r.1 = Naming.routingPath inst tenant area

theorem find?_rules_routingPath (ps : List ResolvedPairing) (area : String) :
    (rules inst tenant ps).find? (Naming.routingPath inst tenant area) =
      (ps.find? (·.area = area)).map (·.name) := by
  simp only [find?_rules, Naming.routingPath_inj]

theorem mem_keys_rules :
    path ∈ (rules inst tenant ps).keys ↔
      path ∈ (ps.map (·.area)).dedup.map (Naming.routingPath inst tenant) := by
  rw [← SortedMap.contains_iff_mem_keys, contains_rules]
  simp

theorem pairwise_lt_keys {α : Type} (m : SortedMap String α) : m.keys.Pairwise (· < ·) :=
  m.increasing_keys.imp compare_lt_iff_lt.1

theorem routes_rules (inst tenant : String) (ps : List ResolvedPairing) :
    Routes inst tenant ps (rules inst tenant ps).entries where
  increasing := pairwise_lt_keys _
  length := by
    -- Neither the paths nor those of the distinct areas have duplicates, and they are the same.
    have hareas : ((ps.map (·.area)).dedup.map (Naming.routingPath inst tenant)).Nodup :=
      (List.nodup_dedup _).map fun _ _ => Naming.routingPath_inj.1
    have hkeys : (rules inst tenant ps).keys.Nodup :=
      (pairwise_lt_keys _).imp ne_of_lt
    have hperm := (List.perm_ext_iff_of_nodup hkeys hareas).2 fun path => mem_keys_rules
    simpa [SortedMap.keys] using hperm.length_eq
  first area hmem := by
    obtain ⟨p, hp⟩ : ∃ p, ps.find? (·.area = area) = some p := by
      rw [← Option.isSome_iff_exists, List.find?_isSome]
      simpa using hmem
    refine ⟨p, hp, SortedMap.find?_eq_some_iff.1 ?_⟩
    rw [find?_rules_routingPath, hp, Option.map_some]
  only r hr := by
    have hmem : r.1 ∈ (rules inst tenant ps).keys := List.mem_map_of_mem hr
    obtain ⟨area, harea, hpath⟩ := List.mem_map.1 (mem_keys_rules.1 hmem)
    exact ⟨area, List.mem_dedup.1 harea, hpath.symm⟩

/-- The path of an area leads to the first pairing of the area and nowhere else. -/
theorem mem_routesOf_build_iff {p : ResolvedPairing} (hfirst : ps.find? (·.area = area) = some p)
    (inst tenant : String) (cls : Option String) :
    ∃ table, build inst tenant ps cls = some table ∧ ∀ backend,
      (some (Naming.routingPath inst tenant area), backend) ∈ routesOf table ↔
        backend = some p.name := by
  have hne : ps ≠ [] := by
    rintro rfl
    cases hfirst
  have hpath : (rules inst tenant ps).find? (Naming.routingPath inst tenant area) =
      some p.name := by
    rw [find?_rules_routingPath, hfirst, Option.map_some]
  refine ⟨_, build_of_ne_nil hne cls, fun backend => ?_⟩
  rw [routesOf_ofRules]
  constructor
  · intro h
    obtain ⟨r, hr, he⟩ := List.mem_map.1 h
    obtain ⟨hp, rfl⟩ := Prod.mk.inj he
    rw [← Option.some.inj hp, SortedMap.find?_eq_some_iff.2 hr] at hpath
    exact hpath
  · rintro rfl
    exact List.mem_map.2 ⟨_, SortedMap.find?_eq_some_iff.1 hpath, rfl⟩

theorem rules_congr (h : ∀ area, qs.find? (·.area = area) = ps.find? (·.area = area)) :
    rules inst tenant qs = rules inst tenant ps := by
  refine SortedMap.ext_find? fun path => ?_
  by_cases hpath : ∃ area, Naming.routingPath inst tenant area = path
  · obtain ⟨area, rfl⟩ := hpath
    rw [find?_rules_routingPath, find?_rules_routingPath, h area]
  · have hnone (l : List ResolvedPairing) : (rules inst tenant l).find? path = none := by
      rw [find?_rules, Option.map_eq_none_iff, List.find?_eq_none]
      exact fun p _ => by simpa using fun he => hpath ⟨p.area, he⟩
    rw [hnone, hnone]

/-- There is a table if there is a pairing. It has one route for each area, to the first pairing of
the area. So it is the same for all lists whose areas have the same first pairings, in particular
for permutations that keep these. -/
theorem build_routes (inst tenant : String) (ps : List ResolvedPairing) (cls : Option String) :
    (build inst tenant ps cls = none ↔ ps = []) ∧
    (∀ table, build inst tenant ps cls = some table → ∃ routes,
      routesOf table = routes.map (fun r => (some r.1, some r.2)) ∧
        Routes inst tenant ps routes) ∧
    ∀ qs, (∀ area, qs.find? (·.area = area) = ps.find? (·.area = area)) →
      build inst tenant qs cls = build inst tenant ps cls := by
  refine ⟨build_eq_none_iff, fun table htable => ?_, fun qs h => ?_⟩
  · have hne : ps ≠ [] := fun hnil => by
      rw [build_eq_none_iff.2 hnil] at htable
      cases htable
    cases (build_of_ne_nil hne cls).symm.trans htable
    exact ⟨_, routesOf_ofRules, routes_rules inst tenant ps⟩
  · rw [build_eq, build_eq, rules_congr h]

end routes

/-- Two pairings of one area: the path leads to the first one, wherever the others are. -/
theorem build_routes_contenders :
    ∃ table, build "dc1" "a" Bundle.contenders none = some table ∧
      routesOf table = [(some "/dc1/a/x(/|$)(.*)", some "tms-a-b"),
        (some "/dc1/a/y(/|$)(.*)", some "tms-a-d")] ∧
      (∃ routes, routesOf table = routes.map (fun r => (some r.1, some r.2)) ∧
        Routes "dc1" "a" Bundle.contenders routes) ∧
      build "dc1" "a" [Bundle.contender "d" "y", Bundle.contender "b" "x", Bundle.contender "c" "x"]
        none = some table := by
  obtain ⟨-, hroutes, hsame⟩ := build_routes "dc1" "a" Bundle.contenders none
  refine ⟨_, rfl, rfl, hroutes _ rfl, hsame _ fun area => ?_⟩
  by_cases hx : "x" = area
  · subst hx
    rfl
  · by_cases hy : "y" = area <;> simp [Bundle.contenders, Bundle.contender, hx, hy]

section rebuild
variable {st : Settings} {s : Store} {ns tenant : String}

/-- What a rebuild reports of the table that it found, with `ps` for the pairings to be routed. -/
structure Reports (st : Settings) (s : Store) (ns tenant : String) (ps : List ResolvedPairing)
    (o : WriteOutcome) : Prop where
  unchanged : o = .unchanged ↔ Exact st s ns tenant ps
  deleted : o = .deleted ↔ ps = [] ∧ (s.find? .ingress (tableKey ns tenant)).isSome
  created : o = .created ↔ ps ≠ [] ∧ s.find? .ingress (tableKey ns tenant) = none
  updated : o = .updated ↔ ps ≠ [] ∧ (s.find? .ingress (tableKey ns tenant)).isSome ∧
    ¬Exact st s ns tenant ps

theorem reports_of_nil (h : s.resolved ns tenant = []) :
    Reports st s ns tenant [] (rebuildOutcome st s ns tenant) := by
  have hexact : Exact st s ns tenant [] ↔ s.find? .ingress (tableKey ns tenant) = none := by
    rw [← h, ← current_iff_exact, Current, build_eq_none_iff.2 h]
  rw [rebuildOutcome, build_eq_none_iff.2 h]
  cases hfound : s.find? .ingress (tableKey ns tenant) <;> rw [hfound] at hexact <;>
    constructor <;> simp [hexact, hfound]

theorem reports_of_ne_nil (h : s.resolved ns tenant ≠ []) :
    Reports st s ns tenant (s.resolved ns tenant) (rebuildOutcome st s ns tenant) := by
  obtain ⟨wanted, hbuild⟩ : ∃ wanted,
      build ns tenant (s.resolved ns tenant) st.ingressClass = some wanted :=
    ⟨_, build_of_ne_nil h _⟩
  have hexact : Exact st s ns tenant (s.resolved ns tenant) ↔
      replace wanted (s.find? .ingress (tableKey ns tenant)) = none := by
    rw [← current_iff_exact, Current, hbuild]
  rw [rebuildOutcome, hbuild]
  cases hfound : s.find? .ingress (tableKey ns tenant) with
  | none =>
    rw [hfound] at hexact
    constructor <;> simp [Upsert.outcome, replace, hexact, hfound, h]
  | some stored =>
    rw [hfound] at hexact
    cases hreplace : replace wanted (some stored) <;> rw [hreplace] at hexact <;>
      constructor <;> simp [Upsert.outcome, hreplace, hexact, hfound, h]

theorem reports_rebuildOutcome (st : Settings) (s : Store) (ns tenant : String) :
    Reports st s ns tenant (s.resolved ns tenant) (rebuildOutcome st s ns tenant) := by
  by_cases h : s.resolved ns tenant = []
  · rw [h]
    exact reports_of_nil h
  · exact reports_of_ne_nil h

/-- A rebuild stores the table of the tenant's pairings, or removes the table if there are none,
whatever table it finds. It leaves a table as it is that is that one already, as it is when the
rebuild is repeated. -/
theorem run_rebuild_exact (st : Settings) (hs : s.Reached) (hf : s.faults = [])
    (ns tenant : String) :
    ∃ ps o s', (resolveForTenant ns tenant).run s = (.ok ps, s) ∧
      (rebuild st ns tenant).run s = (.ok o, s') ∧
      Exact st s' ns tenant ps ∧ Reports st s ns tenant ps o ∧ (o = .unchanged → s' = s) ∧
      (∀ k key, ¬(k = .ingress ∧ key = tableKey ns tenant) →
        s'.find? k key = s.find? k key) ∧
      (rebuild st ns tenant).run s' = (.ok .unchanged, s') := by
  have hc : s.Calm := ⟨hs.filed, hf⟩
  have hcurrent := current_rebuilt st ns tenant s
  have hsame : (rebuilt st s ns tenant).resolved ns tenant = s.resolved ns tenant :=
    (agreeOff_rebuilt st ns tenant s).resolved_eq (by simp) (by simp)
  have hexact := current_iff_exact.1 hcurrent
  rw [hsame] at hexact
  have hreports := reports_rebuildOutcome st s ns tenant
  refine ⟨_, _, _, hc.run_resolveForTenant ns tenant, run_rebuild st ns tenant hc, hexact, hreports,
    fun h => ?_, agreeOff_rebuilt st ns tenant s, ?_⟩
  · exact rebuilt_of_current st ns tenant (current_iff_exact.2 (hreports.unchanged.1 h))
  · rw [run_rebuild st ns tenant (calm_rebuilt st ns tenant hc),
      rebuilt_of_current st ns tenant hcurrent,
      (reports_rebuildOutcome st _ ns tenant).unchanged.2 (current_iff_exact.1 hcurrent)]

/-- A table of the tenant `a` that routes to a pairing it does not have. -/
def outdatedTable : Ingress :=
  ofRules "dc1" "a" none (.singleton "/dc1/a/z(/|$)(.*)" "tms-a-z")

def drifted : Store := (Matrix.crowded.perform (.create .ingress outdatedTable)).2

def corrected : Store := ((rebuild {} "dc1" "a").run drifted).2

theorem run_rebuild_drifted : drifted.Reached ∧ drifted.faults = [] ∧
    (rebuild {} "dc1" "a").run drifted = (.ok .updated, corrected) ∧
    paths drifted "dc1" "a" = ["/dc1/a/z(/|$)(.*)"] ∧
    paths corrected "dc1" "a" = ["/dc1/a/b-c(/|$)(.*)", "/dc1/a/c(/|$)(.*)"] ∧
    (∃ ps, (resolveForTenant "dc1" "a").run drifted = (.ok ps, drifted) ∧
      Exact {} corrected "dc1" "a" ps ∧ Reports {} drifted "dc1" "a" ps .updated) ∧
    (rebuild {} "dc1" "a").run corrected = (.ok .unchanged, corrected) := by
  have hreached : drifted.Reached := Matrix.reached_crowded.call _
  obtain ⟨ps, o, s', hps, hrun, hexact, hreports, -, -, hagain⟩ :=
    run_rebuild_exact {} hreached rfl "dc1" "a"
  have hupdated : (rebuild {} "dc1" "a").run drifted = (.ok .updated, corrected) := rfl
  cases hrun.symm.trans hupdated
  exact ⟨hreached, rfl, hupdated, rfl, rfl, ⟨ps, hps, hexact, hreports⟩, hagain⟩

end rebuild

end Routing
end TenantOperator
