import TenantOperator.Proofs.Naming
import TenantOperator.Proofs.Tenancy.Resolved

/-! Tenant bundles. Setting an entry and syncing change one ConfigMap, and neither finds anything
left to do right after itself. -/
namespace TenantOperator
namespace Bundle
open Program

/-- The bundle and the routing table that the pairings of a tenant share. -/
def Shared (ns tenant : String) (k : Kind) (key : Key) : Prop :=
  (k = .configMap ∧ key = tenantKey ns tenant) ∨ (k = .ingress ∧ key = Routing.tableKey ns tenant)

theorem shared_inj {ns ns' t u : String} {k : Kind} {key : Key} (ht : Shared ns t k key)
    (hu : Shared ns' u k key) : ns = ns' ∧ t = u := by
  rcases ht with ⟨rfl, rfl⟩ | ⟨rfl, rfl⟩
  · exact tenantKey_inj.1 (by simpa [Shared] using hu)
  · exact Routing.tableKey_inj.1 (by simpa [Shared] using hu)

/-- The entry of an area, given its old entry and its candidates. -/
def chosen : Option String → List String → Option String
  | some e, l => if l.contains e then some e else some (l.headD e)
  | none, l => l.head?

theorem chosen_chosen (old : Option String) (l : List String) :
    chosen (chosen old l) l = chosen old l := by
  cases l with
  | nil => cases old <;> simp [chosen]
  | cons a l =>
    cases old with
    | none => simp [chosen]
    | some e =>
      by_cases h : (a :: l).contains e
      · simp only [chosen, h, if_true]
      · simp only [chosen, h, List.headD_cons]
        simp

theorem chosen_of_mem {e : String} {l : List String} (h : e ∈ l) : chosen (some e) l = some e :=
  if_pos (List.contains_iff_mem.2 h)

theorem chosen_of_notMem {old : Option String} {l : List String} (hl : l ≠ [])
    (h : ∀ e ∈ l, old ≠ some e) : chosen old l = l.head? := by
  obtain ⟨a, l, rfl⟩ := List.exists_cons_of_ne_nil hl
  cases old with
  | none => rfl
  | some e => exact if_neg fun hc => h e (List.contains_iff_mem.1 hc) rfl

/-- `d` with the entry of one wanted area settled. -/
def settle (d : Labels) (area : String) (entries : List String) : Labels :=
  match d.find? area, entries with
  | some e, _ => if entries.contains e then d else d.insert area (entries.headD e)
  | none, e :: _ => d.insert area e
  | none, [] => d

theorem find?_settle_self (d : Labels) (area : String) (entries : List String) :
    (settle d area entries).find? area = chosen (d.find? area) entries := by
  unfold settle
  split
  · rename_i e _ hd
    rw [hd, chosen]
    split
    · exact hd
    · exact SortedMap.find?_insert_self ..
  · rename_i hd
    rw [hd]
    exact SortedMap.find?_insert_self ..
  · rename_i hd
    rw [hd]
    rfl

theorem find?_settle_of_ne (d : Labels) {area area' : String} (h : area' ≠ area)
    (entries : List String) : (settle d area entries).find? area' = d.find? area' := by
  unfold settle
  split
  · split
    · rfl
    · exact SortedMap.find?_insert_of_ne d h _
  · exact SortedMap.find?_insert_of_ne d h _
  · rfl

theorem find?_foldl_settle {l : List (String × List String)} (hl : Increasing l) (d : Labels)
    (area : String) :
    (l.foldl (fun d e => settle d e.1 e.2) d).find? area =
      match SortedMap.search area l with
      | none => d.find? area
      | some entries => chosen (d.find? area) entries := by
  induction l generalizing d with
  | nil => rfl
  | cons x l ih =>
    obtain ⟨a, entries⟩ := x
    obtain ⟨ha, hl⟩ := List.pairwise_cons.1 hl
    rw [List.foldl_cons, ih hl]
    cases hc : compare area a with
    | eq =>
      -- No later pair has the area of the first one.
      have : area = a := Std.LawfulEqCmp.eq_of_compare hc
      subst this
      simp only [SortedMap.search, hc]
      rw [SortedMap.search_eq_none_of_lt ha]
      exact find?_settle_self d area entries
    | lt =>
      have hne : area ≠ a := by
        rintro rfl
        simp [Std.ReflCmp.compare_self] at hc
      simp only [SortedMap.search, hc]
      rw [SortedMap.search_eq_none_of_lt fun e he => Std.TransCmp.lt_trans hc (ha e he)]
      exact find?_settle_of_ne d hne entries
    | gt =>
      have hne : area ≠ a := by
        rintro rfl
        simp [Std.ReflCmp.compare_self] at hc
      simp only [SortedMap.search, hc, find?_settle_of_ne d hne]

theorem find?_merge (wanted : SortedMap String (List String)) (d : Labels) (area : String) :
    (merge wanted d).find? area = (wanted.find? area).bind (chosen (d.find? area)) := by
  refine (find?_foldl_settle wanted.increasing _ area).trans ?_
  show (match wanted.find? area with | none => _ | some entries => _) = _
  cases h : wanted.find? area with
  | none => simp [SortedMap.find?_filter, SortedMap.contains, h]
  | some entries =>
    have hf : (d.filter fun area _ => wanted.contains area).find? area = d.find? area := by
      simp only [SortedMap.find?_filter, SortedMap.contains, h]
      cases d.find? area <;> rfl
    rw [hf]
    rfl

theorem merge_merge (wanted : SortedMap String (List String)) (d : Labels) :
    merge wanted (merge wanted d) = merge wanted d := by
  refine SortedMap.ext_find? fun area => ?_
  rw [find?_merge, find?_merge]
  cases wanted.find? area with
  | none => rfl
  | some entries => exact chosen_chosen ..

theorem key_withData (cm : ConfigMap) (d : Labels) : (withData cm d).key = cm.key := rfl

theorem mergeInto_eq_some {wanted : SortedMap String (List String)} {current : Option ConfigMap}
    {cm : ConfigMap} (h : mergeInto wanted current = some cm) :
    ∃ old, current = some old ∧ cm = withData old (merge wanted (data old)) := by
  cases current with
  | none => cases h
  | some old =>
    simp only [mergeInto] at h
    split at h
    · cases h
    · cases h
      exact ⟨old, rfl, rfl⟩

theorem key_of_mergeInto {wanted : SortedMap String (List String)} {key : Key}
    {current : Option ConfigMap} {cm : ConfigMap} (hc : ∀ c, current = some c → c.key = key)
    (h : mergeInto wanted current = some cm) : cm.key = key := by
  obtain ⟨old, ho, rfl⟩ := mergeInto_eq_some h
  exact hc old ho

theorem mergeInto_of_merged {wanted : SortedMap String (List String)} {current : Option ConfigMap}
    {cm : ConfigMap} (h : mergeInto wanted current = some cm) (v : Option String) :
    mergeInto wanted (some (cm.withVersion v)) = none := by
  obtain ⟨old, -, rfl⟩ := mergeInto_eq_some h
  exact if_pos (merge_merge wanted (data old))

theorem setEntry_eq_some {key : Key} {area entry : String} {current : Option ConfigMap}
    {cm : ConfigMap} (h : setEntry key area entry current = some cm) :
    cm = withData (current.getD (make key ∅))
      ((data (current.getD (make key ∅))).insert area entry) := by
  simp only [setEntry] at h
  split at h
  · cases h
  · exact (Option.some.inj h).symm

theorem setEntry_of_set {key : Key} {area entry : String} {current : Option ConfigMap}
    {cm : ConfigMap} (h : setEntry key area entry current = some cm) (v : Option String) :
    setEntry key area entry (some (cm.withVersion v)) = none := by
  rw [setEntry_eq_some h]
  exact if_pos (SortedMap.find?_insert_self ..)

theorem key_of_setEntry {key : Key} {area entry : String} {current : Option ConfigMap}
    {cm : ConfigMap} (hc : ∀ c, current = some c → c.key = key)
    (h : setEntry key area entry current = some cm) : cm.key = key := by
  rw [setEntry_eq_some h, key_withData]
  cases current with
  | none => rfl
  | some c => exact hc c rfl

theorem fits_setEntry {key : Key} {area entry : String} :
    Upsert.Fits key (setEntry key area entry) := by
  refine fun current cm hc h => ⟨key_of_setEntry hc h, ?_⟩
  rintro rfl
  rw [setEntry_eq_some h]
  rfl

theorem fits_mergeInto {key : Key} {wanted : SortedMap String (List String)} :
    Upsert.Fits key (mergeInto wanted) := by
  refine fun current cm hc h => ⟨key_of_mergeInto hc h, ?_⟩
  rintro rfl
  cases h

theorem data_upserted_mergeInto (s : Store) (key : Key) (wanted : SortedMap String (List String)) :
    ((s.upserted key (mergeInto wanted)).find? .configMap key).map data =
      (s.find? .configMap key).map fun cm => merge wanted (data cm) := by
  rw [Store.find?_upserted]
  cases s.find? .configMap key with
  | none => rfl
  | some cm =>
    by_cases hm : merge wanted (data cm) = data cm
    · simp [mergeInto, hm]
    · simp only [mergeInto, if_neg hm]
      rfl

/-- The bundle of an upsert is in line right after it. -/
theorem mergeInto_upserted (s : Store) (key : Key) (wanted : SortedMap String (List String)) :
    mergeInto wanted ((s.upserted key (mergeInto wanted)).find? .configMap key) = none := by
  rw [Store.find?_upserted]
  cases h : mergeInto wanted (s.find? .configMap key) with
  | none => exact h
  | some cm => exact mergeInto_of_merged h _

section run
variable {s : Store} (st : Settings) (ns tenant : String)

theorem run_applyEntry (hs : s.Calm) (area : String) (c : Configuration) :
    (applyEntry st ns tenant area c).run s =
      (.ok (Upsert.outcome (setEntry (tenantKey ns tenant) area (Configuration.entry c))
          (s.find? .configMap (tenantKey ns tenant))),
        s.upserted (tenantKey ns tenant)
          (setEntry (tenantKey ns tenant) area (Configuration.entry c))) :=
  hs.run_upsert _ _ fits_setEntry

theorem run_sync (hs : s.Calm) (pairings : List ResolvedPairing) :
    (sync st ns tenant pairings).run s =
      (.ok (Upsert.outcome (mergeInto (candidates pairings))
          (s.find? .configMap (tenantKey ns tenant))),
        s.upserted (tenantKey ns tenant) (mergeInto (candidates pairings))) :=
  hs.run_upsert _ _ fits_mergeInto

/-- The stored bundle, or its absence, is in line with the tenant's pairings. -/
def Synced (s : Store) (ns tenant : String) : Prop :=
  mergeInto (candidates (s.resolved ns tenant)) (s.find? .configMap (tenantKey ns tenant)) = none

theorem synced_upserted (s : Store) :
    Synced (s.upserted (tenantKey ns tenant) (mergeInto (candidates (s.resolved ns tenant)))) ns
      tenant := by
  have hr : (s.upserted (tenantKey ns tenant)
      (mergeInto (candidates (s.resolved ns tenant)))).resolved ns tenant = s.resolved ns tenant :=
    (s.agreeOff_upserted _ _).resolved_eq (by simp) (by simp)
  rw [Synced, hr]
  exact mergeInto_upserted ..

theorem run_deleteTenant (hs : s.Calm) :
    (deleteTenant ns tenant).run s =
      (.ok (if (s.find? .configMap (tenantKey ns tenant)).isSome then .deleted else .unchanged),
        s.remove .configMap (tenantKey ns tenant)) := by
  rw [deleteTenant, run_bind_of_ok (hs.run_delete ..)]
  cases s.find? .configMap (tenantKey ns tenant) <;> rfl

end run

section calls
variable {Q : Call → Prop} (st : Settings) (ns tenant : String)

theorem every_applyEntry (hg : ∀ k key, Q (.get k key))
    (hq : ∀ r : ConfigMap, r.key = tenantKey ns tenant →
      Q (.create .configMap r) ∧ Q (.update .configMap r))
    (area : String) (c : Configuration) : (applyEntry st ns tenant area c).Every Q := by
  refine every_upsert (hg ..) fun current r hc h => ?_
  have hr := key_of_setEntry hc h
  exact ⟨(hq r hr).1, fun v => (hq (r.withVersion v) hr).2⟩

theorem every_sync (hg : ∀ k key, Q (.get k key))
    (hq : ∀ r : ConfigMap, r.key = tenantKey ns tenant →
      Q (.create .configMap r) ∧ Q (.update .configMap r))
    (pairings : List ResolvedPairing) : (sync st ns tenant pairings).Every Q := by
  refine every_upsert (hg ..) fun current r hc h => ?_
  have hr := key_of_mergeInto hc h
  exact ⟨(hq r hr).1, fun v => (hq (r.withVersion v) hr).2⟩

end calls

end Bundle
end TenantOperator
