import Mathlib.Data.List.Sort
import TenantOperator.Proofs.Tenancy.Bundle

/-! Areas in use and entries of bundles. A tenant uses the functional areas of its live pairings;
setting an entry adds one key to its bundle, and a sync leaves the keys that are in use. -/
namespace TenantOperator

namespace ResolvedPairing
variable {p : ResolvedPairing} {l : List ResolvedPairing}

/-- Whether `p` comes no later than `q` in the order of names. -/
def NotAfter (p q : ResolvedPairing) : Prop := (compare p.name q.name).isLE

instance : DecidableRel NotAfter := fun p q =>
  inferInstanceAs (Decidable ((compare p.name q.name).isLE = true))

instance : Std.Total NotAfter where
  total p q := by
    rw [NotAfter, NotAfter, Ordering.isLE_iff_ne_gt, or_iff_not_imp_left, not_not]
    intro h
    rw [Std.OrientedCmp.gt_iff_lt.1 h]
    rfl

instance : IsTrans ResolvedPairing NotAfter where
  trans _ _ _ := Std.TransCmp.isLE_trans

theorem insertByName_eq (p : ResolvedPairing) (l : List ResolvedPairing) :
    p.insertByName l = l.orderedInsert NotAfter p := by
  induction l with
  | nil => rfl
  | cons q l ih =>
    rw [insertByName, List.orderedInsert_cons]
    by_cases h : p.NotAfter q
    · rw [if_pos h, if_neg (Ordering.isLE_iff_ne_gt.1 h)]
    · rw [if_neg h, if_pos (not_not.1 (mt Ordering.isLE_iff_ne_gt.2 h)), ih]

theorem sortByName_eq (l : List ResolvedPairing) : sortByName l = l.insertionSort NotAfter := by
  induction l with
  | nil => rfl
  | cons p l ih => rw [List.insertionSort_cons, ← ih, ← insertByName_eq]; rfl

@[simp] theorem mem_sortByName : p ∈ sortByName l ↔ p ∈ l := by
  rw [sortByName_eq, List.mem_insertionSort]

theorem pairwise_sortByName (l : List ResolvedPairing) : (sortByName l).Pairwise NotAfter := by
  rw [sortByName_eq]
  exact List.pairwise_insertionSort NotAfter l

end ResolvedPairing

namespace Store
variable {s s' : Store} {ns tenant : String}

/-- Functional areas of the tenant's pairings whose microservice exists. -/
def areas (s : Store) (ns tenant : String) : List String := (s.resolved ns tenant).map (·.area)

theorem mem_areas {area : String} :
    area ∈ s.areas ns tenant ↔ ∃ p ∈ s.select .pairing (some ns) (Naming.tenantSelector tenant),
      ∃ m, s.find? .microservice (.inSpace ns p.content.microserviceId) = some m ∧
        m.content.functionalArea = area := by
  simp only [areas, List.mem_map, resolved, ResolvedPairing.mem_sortByName, List.mem_filterMap,
    resolve?, Option.map_eq_some_iff]
  constructor
  · rintro ⟨q, ⟨p, hp, m, hm, rfl⟩, rfl⟩
    exact ⟨p, hp, m, hm, rfl⟩
  · rintro ⟨p, hp, m, hm, rfl⟩
    exact ⟨⟨p, m.content.functionalArea⟩, ⟨p, hp, m, hm, rfl⟩, rfl⟩

end Store

namespace Bundle
variable {s s' : Store} {ns tenant area : String}

def entries (s : Store) (ns tenant : String) : Labels :=
  ((s.find? .configMap (tenantKey ns tenant)).map data).getD ∅

theorem entries_congr
    (h : s'.find? .configMap (tenantKey ns tenant) = s.find? .configMap (tenantKey ns tenant)) :
    entries s' ns tenant = entries s ns tenant := by
  rw [entries, h, entries]

theorem entries_of_some {cm : ConfigMap} (h : s.find? .configMap (tenantKey ns tenant) = some cm) :
    entries s ns tenant = data cm := by
  rw [entries, h]
  rfl

theorem isSome_of_contains (h : (entries s ns tenant).contains area) :
    (s.find? .configMap (tenantKey ns tenant)).isSome := by
  cases hc : s.find? .configMap (tenantKey ns tenant) with
  | none =>
    rw [entries, hc] at h
    cases h
  | some cm => rfl

theorem data_getD_make :
    data ((s.find? .configMap (tenantKey ns tenant)).getD (make (tenantKey ns tenant) ∅)) =
      entries s ns tenant := by
  rw [entries]
  cases s.find? .configMap (tenantKey ns tenant) <;> rfl

theorem setEntry_eq_none_iff {entry : String} :
    setEntry (tenantKey ns tenant) area entry (s.find? .configMap (tenantKey ns tenant)) = none ↔
      (entries s ns tenant).find? area = some entry := by
  simp only [setEntry, data_getD_make]
  split <;> simp_all

theorem entries_setEntry {entry : String} :
    entries (s.upserted (tenantKey ns tenant) (setEntry (tenantKey ns tenant) area entry)) ns
      tenant = (entries s ns tenant).insert area entry := by
  cases hset : setEntry (tenantKey ns tenant) area entry
      (s.find? .configMap (tenantKey ns tenant)) with
  | none =>
    -- The entry is there already.
    rw [Store.upserted_of_none hset,
      SortedMap.insert_of_find?_eq_some (setEntry_eq_none_iff.1 hset)]
  | some cm =>
    have hnew := setEntry_eq_some hset
    rw [data_getD_make] at hnew
    have hfind := s.find?_upserted (tenantKey ns tenant)
      (setEntry (tenantKey ns tenant) area entry)
    rw [hset] at hfind
    rw [entries_of_some hfind, hnew]
    rfl

theorem contains_entries_setEntry {a entry : String} :
    (entries (s.upserted (tenantKey ns tenant) (setEntry (tenantKey ns tenant) area entry)) ns
      tenant).contains a ↔ a = area ∨ (entries s ns tenant).contains a := by
  rw [entries_setEntry]
  by_cases ha : a = area
  · subst ha
    simp [SortedMap.contains]
  · simp [SortedMap.contains, SortedMap.find?_insert_of_ne _ ha, ha]

def entriesOf (ps : List ResolvedPairing) (area : String) : List String :=
  (ps.filter (·.area = area)).map (·.entry)

theorem find?_candidates (ps : List ResolvedPairing) (area : String) :
    (candidates ps).find? area =
      if entriesOf ps area = [] then none else some (entriesOf ps area) := by
  suffices ∀ m : SortedMap String (List String),
      (ps.foldl (fun m p => m.insert p.area ((m.find? p.area).getD [] ++ [p.entry])) m).find? area =
        if entriesOf ps area = [] then m.find? area
        else some ((m.find? area).getD [] ++ entriesOf ps area) by
    exact (this ∅).trans (by simp)
  induction ps with
  | nil => exact fun m => rfl
  | cons p ps ih =>
    intro m
    rw [List.foldl_cons, ih]
    by_cases hp : p.area = area
    · subst hp
      have hcons : entriesOf (p :: ps) p.area = p.entry :: entriesOf ps p.area := by
        simp [entriesOf]
      rw [hcons, SortedMap.find?_insert_self]
      by_cases h : entriesOf ps p.area = [] <;> simp [h]
    · have hcons : entriesOf (p :: ps) area = entriesOf ps area := by simp [entriesOf, hp]
      rw [hcons, SortedMap.find?_insert_of_ne _ (Ne.symm hp)]

theorem entriesOf_eq_nil {ps : List ResolvedPairing} :
    entriesOf ps area = [] ↔ area ∉ ps.map (·.area) := by
  simp [entriesOf, List.filter_eq_nil_iff]

theorem mem_entriesOf {ps : List ResolvedPairing} {e : String} :
    e ∈ entriesOf ps area ↔ ∃ p ∈ ps, p.area = area ∧ p.entry = e := by
  simp [entriesOf, and_assoc]

theorem head?_entriesOf (ps : List ResolvedPairing) (area : String) :
    (entriesOf ps area).head? = (ps.find? (·.area = area)).map (·.entry) := by
  rw [entriesOf, List.head?_map, List.head?_filter]

theorem find?_merge_of_mem {ps : List ResolvedPairing} (h : area ∈ ps.map (·.area)) (d : Labels) :
    (merge (candidates ps) d).find? area = chosen (d.find? area) (entriesOf ps area) := by
  rw [find?_merge, find?_candidates, if_neg fun hnil => entriesOf_eq_nil.1 hnil h]
  rfl

/-- A sync keeps and makes entries for the areas that are in use. -/
theorem contains_merge {ps : List ResolvedPairing} {d : Labels} :
    (merge (candidates ps) d).contains area ↔ area ∈ ps.map (·.area) := by
  rw [SortedMap.contains, find?_merge, find?_candidates]
  by_cases hmem : area ∈ ps.map (·.area)
  · have h : entriesOf ps area ≠ [] := fun h => entriesOf_eq_nil.1 h hmem
    obtain ⟨e, l, hl⟩ := List.exists_cons_of_ne_nil h
    rw [if_neg h, hl, Option.bind_some]
    simp only [hmem, iff_true]
    cases d.find? area with
    | none => rfl
    | some old =>
      rw [chosen]
      split <;> rfl
  · rw [if_pos (entriesOf_eq_nil.2 hmem)]
    simp [hmem]

theorem contains_entries_mergeInto {ps : List ResolvedPairing} :
    (entries (s.upserted (tenantKey ns tenant) (mergeInto (candidates ps))) ns tenant).contains
      area ↔ (s.find? .configMap (tenantKey ns tenant)).isSome ∧ area ∈ ps.map (·.area) := by
  rw [entries, data_upserted_mergeInto]
  cases s.find? .configMap (tenantKey ns tenant) with
  | none => simp [SortedMap.contains]
  | some cm => exact contains_merge.trans (by simp)

end Bundle
end TenantOperator
