import Mathlib.Data.List.Induction
import TenantOperator.Proofs.Interruption.Converging

/-! Entries that are set one after the other. Of the pairings of an area the last one decides, so a
bundle that all of them have written comes back to its entries when they write it again. -/
namespace TenantOperator
open Program Store

namespace Bundle
variable {area : String}

/-- Entries of pairings put over `d`, one after the other. -/
def overwrite (d : Labels) (qs : List ResolvedPairing) : Labels :=
  qs.foldl (fun d q => d.insert q.area q.entry) d

theorem find?_overwrite_of_notMem {qs : List ResolvedPairing} (h : area ∉ qs.map (·.area))
    (d : Labels) : (overwrite d qs).find? area = d.find? area := by
  induction qs generalizing d with
  | nil => rfl
  | cons q qs ih =>
    rw [List.map_cons, List.mem_cons, not_or] at h
    obtain ⟨hq, hqs⟩ := h
    exact (ih hqs _).trans (SortedMap.find?_insert_of_ne d hq _)

theorem exists_find?_overwrite {qs : List ResolvedPairing} (h : area ∈ qs.map (·.area)) :
    ∃ q ∈ qs, q.area = area ∧ ∀ d, (overwrite d qs).find? area = some q.entry := by
  induction qs with
  | nil => cases h
  | cons q qs ih =>
    by_cases hqs : area ∈ qs.map (·.area)
    · obtain ⟨r, hr, hra, hfind⟩ := ih hqs
      exact ⟨r, List.mem_cons_of_mem q hr, hra, fun d => hfind _⟩
    · obtain rfl : area = q.area := (List.mem_cons.1 h).resolve_right hqs
      refine ⟨q, List.mem_cons_self, rfl, fun d => ?_⟩
      exact (find?_overwrite_of_notMem hqs _).trans (SortedMap.find?_insert_self ..)

/-- The last pairing of an area decides, and without one the old entry stays. -/
theorem find?_overwrite (d : Labels) (qs : List ResolvedPairing) (area : String) :
    (overwrite d qs).find? area =
      ((qs.filter (·.area = area)).getLast?.map (·.entry)).or (d.find? area) := by
  induction qs using List.reverseRecOn with
  | nil => rfl
  | append_singleton qs q ih =>
    have hlast : overwrite d (qs ++ [q]) = (overwrite d qs).insert q.area q.entry := by
      simp [overwrite]
    rw [hlast, List.filter_append]
    by_cases hq : q.area = area
    · subst hq
      simp
    · rw [SortedMap.find?_insert_of_ne _ (Ne.symm hq), ih]
      simp [hq]

theorem overwrite_overwrite (d : Labels) (qs : List ResolvedPairing) :
    overwrite (overwrite d qs) qs = overwrite d qs := by
  refine SortedMap.ext_find? fun area => ?_
  by_cases h : area ∈ qs.map (·.area)
  · obtain ⟨q, -, -, hfind⟩ := exists_find?_overwrite h
    rw [hfind, hfind]
  · exact find?_overwrite_of_notMem h _

theorem find?_overwrite_of_agreed {qs : List ResolvedPairing}
    (h : ∀ p ∈ qs, ∀ q ∈ qs, p.area = q.area → p.entry = q.entry) {q : ResolvedPairing}
    (hq : q ∈ qs) (d : Labels) : (overwrite d qs).find? q.area = some q.entry := by
  obtain ⟨p, hp, harea, hfind⟩ := exists_find?_overwrite (List.mem_map_of_mem hq)
  rw [hfind, h p hp q hq harea]

/-- The bundle is `cm` with the entries `d`, whatever its version. -/
def Bears (cm : ConfigMap) (d : Labels) (c : Option ConfigMap) : Prop :=
  ∃ v, c = some ((withData cm d).withVersion v)

theorem bears_self {cm : ConfigMap} {area : String} (h : (data cm).contains area) :
    Bears cm (data cm) (some cm) := by
  refine ⟨cm.metadata.resourceVersion, congrArg some ?_⟩
  obtain ⟨metadata, hdata | d, others⟩ := cm
  · cases h
  · rfl

theorem Bears.withVersion_eq {cm : ConfigMap} {d : Labels} {c c' : Option ConfigMap}
    (h : Bears cm d c) (h' : Bears cm d c') :
    c'.map (·.withVersion none) = c.map (·.withVersion none) := by
  obtain ⟨v, rfl⟩ := h
  obtain ⟨v', rfl⟩ := h'
  rfl

end Bundle

namespace Reconcile
variable {s : Store} {ns u : String} {q : ResolvedPairing}

def enter (ns : String) (s : Store) (q : ResolvedPairing) : Store :=
  entered s ns q.pairing.content.tenantId q.area q.pairing.content.configuration

theorem agreeOff_enter (ns : String) (s : Store) (q : ResolvedPairing) :
    AgreeOff (fun k key => k = .configMap ∧
      key = Bundle.tenantKey ns q.pairing.content.tenantId) s (enter ns s q) :=
  s.agreeOff_upserted _ _

theorem entries_enter : Bundle.entries (enter ns s q) ns u =
    if q.pairing.content.tenantId = u then (Bundle.entries s ns u).insert q.area q.entry
    else Bundle.entries s ns u := by
  split
  · rename_i h
    subst h
    exact Bundle.entries_setEntry
  · rename_i h
    refine Bundle.entries_congr (agreeOff_enter ns s q _ _ ?_)
    simp [Bundle.tenantKey_inj, Ne.symm h]

theorem bears_enter {cm : ConfigMap} {d : Labels}
    (h : Bundle.Bears cm d (s.find? .configMap (Bundle.tenantKey ns u)))
    (hq : q.pairing.content.tenantId = u) :
    Bundle.Bears cm (d.insert q.area q.entry)
      ((enter ns s q).find? .configMap (Bundle.tenantKey ns u)) := by
  subst hq
  obtain ⟨v, hv⟩ := h
  have hfind := s.find?_upserted (Bundle.tenantKey ns q.pairing.content.tenantId)
    (Bundle.setEntry (Bundle.tenantKey ns q.pairing.content.tenantId) q.area q.entry)
  rw [hv] at hfind
  rw [show enter ns s q = s.upserted _ (Bundle.setEntry _ q.area q.entry) from rfl, hfind]
  have hdata : Bundle.data ((Bundle.withData cm d).withVersion v) = d := rfl
  by_cases hd : d.find? q.area = some q.entry
  · refine ⟨v, ?_⟩
    simp only [Bundle.setEntry, Option.getD_some, hdata, hd, if_true,
      SortedMap.insert_of_find?_eq_some hd]
  · refine ⟨some (toString (s.version + 1)), ?_⟩
    simp only [Bundle.setEntry, Option.getD_some, hdata, hd, if_false]
    rfl

theorem bears_foldl_enter (qs : List ResolvedPairing) {cm : ConfigMap} {d : Labels}
    (h : Bundle.Bears cm d (s.find? .configMap (Bundle.tenantKey ns u))) :
    Bundle.Bears cm (Bundle.overwrite d (qs.filter (·.pairing.content.tenantId = u)))
      ((qs.foldl (enter ns) s).find? .configMap (Bundle.tenantKey ns u)) := by
  induction qs generalizing s d with
  | nil => exact h
  | cons q qs ih =>
    by_cases hq : q.pairing.content.tenantId = u
    · rw [List.filter_cons_of_pos (by simpa using hq)]
      exact ih (bears_enter h hq)
    · rw [List.filter_cons_of_neg (by simpa using hq)]
      refine ih ?_
      rwa [agreeOff_enter ns s q _ _ (by simp [Bundle.tenantKey_inj, Ne.symm hq])]

theorem entries_foldl_enter (qs : List ResolvedPairing) :
    Bundle.entries (qs.foldl (enter ns) s) ns u =
      Bundle.overwrite (Bundle.entries s ns u) (qs.filter (·.pairing.content.tenantId = u)) := by
  induction qs generalizing s with
  | nil => rfl
  | cons q qs ih =>
    rw [List.foldl_cons, ih, entries_enter]
    by_cases hq : q.pairing.content.tenantId = u
    · rw [List.filter_cons_of_pos (by simpa using hq), if_pos hq]
      rfl
    · rw [List.filter_cons_of_neg (by simpa using hq), if_neg hq]

theorem enter_of_find? (h : (Bundle.entries s ns q.pairing.content.tenantId).find? q.area =
    some q.entry) : enter ns s q = s :=
  upserted_of_none (Bundle.setEntry_eq_none_iff.2 h)

theorem leads_enter (hs : s.Calm) : s.Leads (enter ns s q) := by
  have h := (Leads.refl s).run (Bundle.applyEntry {} ns q.pairing.content.tenantId q.area
    q.pairing.content.configuration)
  rw [Bundle.run_applyEntry {} ns _ hs] at h
  exact h

theorem leads_foldl_enter (hs : s.Calm) (qs : List ResolvedPairing) :
    s.Leads (qs.foldl (enter ns) s) := by
  induction qs generalizing s with
  | nil => exact .refl s
  | cons q qs ih => exact (leads_enter hs).trans (ih (calm_entered hs))

/-- A bundle that is the same in the end was not written in between, so it had all the entries. -/
theorem find?_data_of_foldl_enter (hs : s.Calm) {qs : List ResolvedPairing} {cm : ConfigMap}
    {n : Nat} (hn : n ≤ s.version) (hv : cm.metadata.resourceVersion = some (toString n))
    (hcm : s.find? .configMap (Bundle.tenantKey ns u) = some cm)
    (h : (qs.foldl (enter ns) s).find? .configMap (Bundle.tenantKey ns u) = some cm)
    (hq : q ∈ qs) (hu : q.pairing.content.tenantId = u) :
    (Bundle.data cm).find? q.area = some q.entry := by
  induction qs generalizing s with
  | nil => cases hq
  | cons r qs ih =>
    have hs' : (enter ns s r).Calm := calm_entered hs
    have hn' : n ≤ (enter ns s r).version := Nat.le_trans hn (leads_enter hs).version_le
    have hcm' : (enter ns s r).find? .configMap (Bundle.tenantKey ns u) = some cm :=
      (leads_foldl_enter hs' qs).find?_of_version hn' hv h
    rcases List.mem_cons.1 hq with rfl | hq
    · have hentries : Bundle.entries (enter ns s q) ns u =
          (Bundle.entries s ns u).insert q.area q.entry := by rw [entries_enter, if_pos hu]
      rw [Bundle.entries_of_some hcm, Bundle.entries_of_some hcm'] at hentries
      rw [hentries]
      exact SortedMap.find?_insert_self ..
    · exact ih hs' hn' hcm' h hq

theorem find?_foldl_enter_of_find? {qs : List ResolvedPairing}
    (h : ∀ q ∈ qs, q.pairing.content.tenantId = u →
      (Bundle.entries s ns u).find? q.area = some q.entry) :
    (qs.foldl (enter ns) s).find? .configMap (Bundle.tenantKey ns u) =
      s.find? .configMap (Bundle.tenantKey ns u) := by
  induction qs generalizing s with
  | nil => rfl
  | cons q qs ih =>
    have hqs : ∀ r ∈ qs, r.pairing.content.tenantId = u →
        (Bundle.entries s ns u).find? r.area = some r.entry :=
      fun r hr => h r (List.mem_cons_of_mem q hr)
    rw [List.foldl_cons]
    by_cases hu : q.pairing.content.tenantId = u
    · rw [enter_of_find? (hu ▸ h q List.mem_cons_self hu)]
      exact ih hqs
    · have hsame : (enter ns s q).find? .configMap (Bundle.tenantKey ns u) =
          s.find? .configMap (Bundle.tenantKey ns u) :=
        agreeOff_enter ns s q _ _ (by simp [Bundle.tenantKey_inj, Ne.symm hu])
      rw [ih (by rwa [Bundle.entries_congr hsame]), hsame]

theorem find?_foldl_enter_eq_iff (hs : s.Calm) (hsound : s.Sound) (qs : List ResolvedPairing) :
    (qs.foldl (enter ns) s).find? .configMap (Bundle.tenantKey ns u) =
        s.find? .configMap (Bundle.tenantKey ns u) ↔
      ∀ q ∈ qs, q.pairing.content.tenantId = u →
        (Bundle.entries s ns u).find? q.area = some q.entry := by
  refine ⟨fun h q hq hu => ?_, find?_foldl_enter_of_find?⟩
  cases hcm : s.find? .configMap (Bundle.tenantKey ns u) with
  | some cm =>
    obtain ⟨n, hn, hv⟩ := hsound.stamped hcm
    rw [Bundle.entries_of_some hcm]
    exact find?_data_of_foldl_enter hs hn hv hcm (h.trans hcm) hq hu
  | none =>
    -- The bundle would have been made on the way.
    have hmem : q.area ∈ (qs.filter (·.pairing.content.tenantId = u)).map (·.area) :=
      List.mem_map_of_mem (List.mem_filter.2 ⟨hq, by simpa using hu⟩)
    obtain ⟨r, -, -, hfind⟩ := Bundle.exists_find?_overwrite hmem
    have hcontains : (Bundle.entries (qs.foldl (enter ns) s) ns u).contains q.area := by
      rw [entries_foldl_enter, SortedMap.contains, hfind]
      rfl
    have hsome := Bundle.isSome_of_contains hcontains
    rw [h, hcm] at hsome
    cases hsome

end Reconcile
end TenantOperator
