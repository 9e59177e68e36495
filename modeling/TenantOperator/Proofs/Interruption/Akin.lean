import TenantOperator.Proofs.Interruption.Retry

/-! Stores that differ in versions. Two runs that come to the same bundles and routing tables may
have written them at different times, and whatever follows does not depend on it: bundles and tables
are compared by what they hold. -/
namespace TenantOperator
open Program Store

namespace Upsert

/-- A change that does not look at the version of what it changes. -/
def Versionless {k : Kind} (change : Option (Resource k) → Option (Resource k)) : Prop :=
  ∀ current, (change (current.map (·.withVersion none))).map (·.withVersion none) =
    (change current).map (·.withVersion none)

end Upsert

theorem Bundle.versionless_mergeInto (wanted : SortedMap String (List String)) :
    Upsert.Versionless (mergeInto wanted) := by
  intro current
  cases current with
  | none => rfl
  | some cm =>
    have hdata : data (cm.withVersion none) = data cm := rfl
    simp only [Option.map_some, mergeInto, hdata]
    split <;> rfl

theorem Routing.versionless_replace (wanted : Ingress) : Upsert.Versionless (replace wanted) := by
  intro current
  cases current with
  | none => rfl
  | some stored =>
    have hcurrent : isCurrent (stored.withVersion none) wanted = isCurrent stored wanted := rfl
    simp only [Option.map_some, replace, hcurrent]

namespace Store
variable {s s' : Store} {k : Kind}

/-- The two stores have the same object in a slot, or none, up to its version. -/
def SameAt (s s' : Store) (k : Kind) (key : Key) : Prop :=
  (s'.find? k key).map (·.withVersion none) = (s.find? k key).map (·.withVersion none)

namespace SameAt
variable {x : Store} {l : Kind} {key : Key}

theorem of_eq (h : s'.find? k key = s.find? k key) : SameAt s s' k key := congrArg _ h

theorem symm (h : SameAt s s' k key) : SameAt s' s k key := Eq.symm h

theorem trans (h : SameAt s x k key) (h' : SameAt x s' k key) : SameAt s s' k key := Eq.trans h' h

theorem isSome_eq (h : SameAt s s' k key) : (s'.find? k key).isSome = (s.find? k key).isSome := by
  rw [← Option.isSome_map (f := (·.withVersion none)), h, Option.isSome_map]

theorem put (h : SameAt s s' l key) (r : Resource k) :
    SameAt (s.put r.key r) (s'.put r.key r) l key := by
  by_cases hl : l = k ∧ key = r.key
  · obtain ⟨rfl, rfl⟩ := hl
    rw [SameAt, find?_put_self, find?_put_self]
    rfl
  · rwa [SameAt, find?_put_of_ne _ hl, find?_put_of_ne _ hl]

theorem ensured (h : SameAt s s' l key) (r : Resource k) :
    SameAt (s.ensured r) (s'.ensured r) l key := by
  by_cases hl : l = k ∧ key = r.key
  · obtain ⟨rfl, rfl⟩ := hl
    rw [Store.ensured, Store.ensured, h.isSome_eq]
    split
    · exact h
    · exact h.put r
  · rwa [SameAt, agreeOff_ensured s r l key hl, agreeOff_ensured s' r l key hl]

theorem change_eq (h : SameAt s s' k key) {change : Option (Resource k) → Option (Resource k)}
    (hc : Upsert.Versionless change) :
    (change (s'.find? k key)).map (·.withVersion none) =
      (change (s.find? k key)).map (·.withVersion none) := by
  rw [← hc, show (s'.find? k key).map _ = _ from h, hc]

theorem upserted (h : SameAt s s' l key) {key' : Key}
    {change : Option (Resource k) → Option (Resource k)} (hc : Upsert.Versionless change) :
    SameAt (s.upserted key' change) (s'.upserted key' change) l key := by
  by_cases hl : l = k ∧ key = key'
  · obtain ⟨rfl, rfl⟩ := hl
    have hch := h.change_eq hc
    rw [SameAt, find?_upserted, find?_upserted]
    cases hs : change (s.find? l key) <;> cases hs' : change (s'.find? l key) <;>
      rw [hs, hs'] at hch
    · exact h
    · cases hch
    · cases hch
    · exact hch
  · rwa [SameAt, agreeOff_upserted s key' change l key hl,
      agreeOff_upserted s' key' change l key hl]

end SameAt

/-- The two stores have the same objects up to their versions. -/
def Same (s s' : Store) : Prop :=
  ∀ k key, (s'.find? k key).map (·.withVersion none) = (s.find? k key).map (·.withVersion none)

/-- The stores differ in the versions of bundles and routing tables at most. -/
structure Akin (s s' : Store) : Prop where
  same : s.Same s'
  equal : ∀ k key, k ≠ .configMap → k ≠ .ingress → s'.find? k key = s.find? k key

theorem Alike.same (h : s.Alike s') : s.Same s' := fun k key => by rw [h]

theorem Alike.akin (h : s.Alike s') : s.Akin s' := ⟨h.same, fun k key _ _ => h k key⟩

namespace Akin

theorem find?_eq_none_iff (h : s.Akin s') {key : Key} :
    s'.find? k key = none ↔ s.find? k key = none := by
  rw [← Option.map_eq_none_iff, h.same k key, Option.map_eq_none_iff]

theorem resolved_eq (h : s.Akin s') (ns tenant : String) :
    s'.resolved ns tenant = s.resolved ns tenant :=
  resolved_congr (fun _ => h.equal _ _ (by simp) (by simp))
    fun key p _ => by rw [h.equal _ key (by simp) (by simp)]

theorem remove (h : s.Akin s') (l : Kind) (key : Key) :
    (s.remove l key).Akin (s'.remove l key) := by
  have hslot : ∀ k key',
      (s.remove l key).find? k key' = none ∧ (s'.remove l key).find? k key' = none ∨
      (s.remove l key).find? k key' = s.find? k key' ∧
        (s'.remove l key).find? k key' = s'.find? k key' := by
    intro k key'
    by_cases hk : k = l ∧ key' = key
    · obtain ⟨rfl, rfl⟩ := hk
      exact Or.inl ⟨find?_remove_self .., find?_remove_self ..⟩
    · exact Or.inr ⟨find?_remove_of_ne _ hk, find?_remove_of_ne _ hk⟩
  constructor
  · intro k key'
    rcases hslot k key' with ⟨hs, hs'⟩ | ⟨hs, hs'⟩ <;> rw [hs, hs']
    exact h.same k key'
  · intro k key' hc hi
    rcases hslot k key' with ⟨hs, hs'⟩ | ⟨hs, hs'⟩ <;> rw [hs, hs']
    exact h.equal k key' hc hi

theorem change_eq_none_iff (h : s.Akin s') {change : Option (Resource k) → Option (Resource k)}
    (hc : Upsert.Versionless change) {key : Key} :
    change (s'.find? k key) = none ↔ change (s.find? k key) = none := by
  rw [← Option.map_eq_none_iff, SameAt.change_eq (h.same k key) hc, Option.map_eq_none_iff]

theorem upserted (h : s.Akin s') (hk : k = .configMap ∨ k = .ingress) (key : Key)
    {change : Option (Resource k) → Option (Resource k)} (hc : Upsert.Versionless change) :
    (s.upserted key change).Akin (s'.upserted key change) := by
  constructor
  · exact fun l key' => SameAt.upserted (h.same l key') hc
  · intro l key' hcm hi
    have hl : ¬(l = k ∧ key' = key) := by
      rintro ⟨rfl, -⟩
      exact hk.elim hcm hi
    rw [agreeOff_upserted s key change l key' hl, agreeOff_upserted s' key change l key' hl]
    exact h.equal l key' hcm hi

end Akin
end Store

namespace Teardown
variable (st : Settings) {s s' : Store} {ns name tenant : String}

theorem akin_synced (h : s.Akin s') : (synced st s ns tenant).Akin (synced st s' ns tenant) := by
  have hbundle := h.upserted (k := .configMap) (Or.inl rfl) (Bundle.tenantKey ns tenant)
    (Bundle.versionless_mergeInto (Bundle.candidates (s.resolved ns tenant)))
  rw [synced, synced, h.resolved_eq]
  rw [Routing.rebuilt, Routing.rebuilt, hbundle.resolved_eq]
  split
  · exact hbundle.remove _ _
  · exact hbundle.upserted (Or.inr rfl) _ (Routing.versionless_replace _)

theorem akin_afterSync (h : s.Akin s') :
    (afterSync st s ns tenant).Akin (afterSync st s' ns tenant) := by
  rw [afterSync, afterSync, h.equal .tenant _ (by simp) (by simp)]
  split
  · exact akin_synced st h
  · exact ((akin_synced st h).remove _ _).remove _ _

theorem akin_cleared (h : s.Akin s') :
    (cleared st ns name tenant s).Akin (cleared st ns name tenant s') :=
  ((akin_afterSync st h).remove _ _).remove _ _

theorem Settled.akin (hset : Settled st s ns tenant) (h : s.Akin s') : Settled st s' ns tenant := by
  obtain ⟨hbundle, htable⟩ := hset
  constructor
  · rw [Bundle.Synced, h.resolved_eq]
    exact (h.change_eq_none_iff (Bundle.versionless_mergeInto _)).2 hbundle
  · unfold Routing.Current at htable ⊢
    rw [h.resolved_eq]
    cases hb : Routing.build ns tenant (s.resolved ns tenant) st.ingressClass with
    | none =>
      rw [hb] at htable
      exact h.find?_eq_none_iff.2 htable
    | some wanted =>
      rw [hb] at htable
      exact (h.change_eq_none_iff (Routing.versionless_replace wanted)).2 htable

end Teardown
end TenantOperator
