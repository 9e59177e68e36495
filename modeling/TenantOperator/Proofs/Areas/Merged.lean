import TenantOperator.Proofs.Tours.Entering

/-! What a sync makes of a tenant's bundle. The old entries and the pairings tell every entry of the
merge, and nothing is left to merge where each entry is that of a pairing of its area. Entries that
pairings set themselves are such, so the two ways to write a bundle do not undo each other. -/
namespace TenantOperator
namespace Bundle
open Program Store

/-- `new` is the merge of the entries `old` with those of pairings: one entry for each of their
areas, which is the old one if that is the entry of a pairing of the area, and else the entry of the
first pairing of the area. -/
structure Merges (ps : List ResolvedPairing) (old new : Labels) : Prop where
  areas (area : String) : new.contains area ↔ area ∈ ps.map (·.area)
  kept : ∀ p ∈ ps, old.find? p.area = some p.entry → new.find? p.area = some p.entry
  first {area : String} {p : ResolvedPairing} : ps.find? (·.area = area) = some p →
    (∀ q ∈ ps, q.area = area → old.find? area ≠ some q.entry) → new.find? area = some p.entry

section merges
variable {ps qs : List ResolvedPairing} {old new new' d : Labels} {area : String}

theorem mem_map_area_of_find? {p : ResolvedPairing} (h : ps.find? (·.area = area) = some p) :
    area ∈ ps.map (·.area) :=
  List.mem_map.2 ⟨p, List.mem_of_find?_eq_some h, by simpa using List.find?_some h⟩

theorem merges_merge (ps : List ResolvedPairing) (d : Labels) :
    Merges ps d (merge (candidates ps) d) where
  areas _ := contains_merge
  kept p hp hold := by
    rw [find?_merge_of_mem (List.mem_map_of_mem hp), hold]
    exact chosen_of_mem (mem_entriesOf.2 ⟨p, hp, rfl, rfl⟩)
  first {area p} hfirst hnot := by
    have hmem := mem_map_area_of_find? hfirst
    have hchosen : chosen (d.find? area) (entriesOf ps area) = (entriesOf ps area).head? := by
      refine chosen_of_notMem (fun hnil => entriesOf_eq_nil.1 hnil hmem) fun e he => ?_
      obtain ⟨q, hq, harea, rfl⟩ := mem_entriesOf.1 he
      exact hnot q hq harea
    rw [find?_merge_of_mem hmem, hchosen, head?_entriesOf, hfirst, Option.map_some]

theorem Merges.unique (h : Merges ps old new) (h' : Merges ps old new') : new = new' := by
  refine SortedMap.ext_find? fun area => ?_
  cases hfirst : ps.find? (·.area = area) with
  | none =>
    -- An area of no pairing has no entry.
    have hnot : area ∉ ps.map (·.area) := by simpa using hfirst
    have hnone {d : Labels} (hd : Merges ps old d) : d.find? area = none := by
      simpa [SortedMap.contains] using mt (hd.areas area).1 hnot
    rw [hnone h, hnone h']
  | some p =>
    by_cases hold : ∃ q ∈ ps, q.area = area ∧ old.find? area = some q.entry
    · obtain ⟨q, hq, rfl, hold⟩ := hold
      rw [h.kept q hq hold, h'.kept q hq hold]
    · have hnot : ∀ q ∈ ps, q.area = area → old.find? area ≠ some q.entry :=
        fun q hq harea he => hold ⟨q, hq, harea, he⟩
      rw [h.first hfirst hnot, h'.first hfirst hnot]

theorem merges_iff : Merges ps old new ↔ merge (candidates ps) old = new := by
  constructor
  · exact (merges_merge ps old).unique
  · rintro rfl
    exact merges_merge ps old

instance (ps : List ResolvedPairing) (old new : Labels) : Decidable (Merges ps old new) :=
  decidable_of_iff _ merges_iff.symm

theorem mergeInto_eq_none_iff {current : Option ConfigMap} :
    mergeInto (candidates ps) current = none ↔
      ∀ cm, current = some cm → Merges ps (data cm) (data cm) := by
  cases current <;> simp [mergeInto, merges_iff]

theorem merges_self (hareas : ∀ area, d.contains area ↔ area ∈ ps.map (·.area))
    (hentries : ∀ area ∈ ps.map (·.area), ∃ p ∈ ps, p.area = area ∧ d.find? area = some p.entry) :
    Merges ps d d where
  areas := hareas
  kept _ _ h := h
  first hfirst hnot := by
    obtain ⟨q, hq, harea, hfind⟩ := hentries _ (mem_map_area_of_find? hfirst)
    exact absurd hfind (hnot q hq harea)

end merges

section run
variable {s s' : Store} {ns tenant : String} {ps qs : List ResolvedPairing} {o : WriteOutcome}

/-- What a sync with some pairings makes of the store `s`, and what it reports: a stored bundle gets
the merge, and is written only if its entries are not the merge already. -/
structure Aligned (ns tenant : String) (ps : List ResolvedPairing) (s s' : Store)
    (o : WriteOutcome) : Prop where
  others : ∀ k key, ¬(k = .configMap ∧ key = tenantKey ns tenant) →
    s'.find? k key = s.find? k key
  unwritten : o = .unchanged → s' = s
  missing : s.find? .configMap (tenantKey ns tenant) = none → o = .unchanged
  stored : ∀ cm, s.find? .configMap (tenantKey ns tenant) = some cm →
    ∃ cm', s'.find? .configMap (tenantKey ns tenant) = some cm' ∧
      Merges ps (data cm) (data cm') ∧
      (∀ d v, (withData cm' d).withVersion v = (withData cm d).withVersion v) ∧
      o = if Merges ps (data cm) (data cm) then .unchanged else .updated

theorem aligned_upserted (s : Store) (ns tenant : String) (ps : List ResolvedPairing) :
    Aligned ns tenant ps s (s.upserted (tenantKey ns tenant) (mergeInto (candidates ps)))
      (Upsert.outcome (mergeInto (candidates ps)) (s.find? .configMap (tenantKey ns tenant))) where
  others := s.agreeOff_upserted _ _
  unwritten h := by
    cases hc : mergeInto (candidates ps) (s.find? .configMap (tenantKey ns tenant)) with
    | none => exact Store.upserted_of_none hc
    | some cm =>
      obtain ⟨old, hold, -⟩ := mergeInto_eq_some hc
      rw [Upsert.outcome, hc, hold] at h
      cases h
  missing h := by rw [h]; rfl
  stored cm hcm := by
    by_cases hm : Merges ps (data cm) (data cm)
    · have hnone : mergeInto (candidates ps) (s.find? .configMap (tenantKey ns tenant)) = none := by
        rw [hcm]
        exact if_pos (merges_iff.1 hm)
      refine ⟨cm, ?_, hm, fun _ _ => rfl, ?_⟩
      · rw [Store.upserted_of_none hnone, hcm]
      · rw [Upsert.outcome, hnone, if_pos hm]
    · have hsome : mergeInto (candidates ps) (some cm) =
          some (withData cm (merge (candidates ps) (data cm))) := if_neg (mt merges_iff.2 hm)
      refine ⟨(withData cm (merge (candidates ps) (data cm))).withVersion
        (some (toString (s.version + 1))), ?_, merges_merge ps (data cm), fun _ _ => rfl, ?_⟩
      · rw [Store.find?_upserted, hcm, hsome]
      · rw [Upsert.outcome, hcm, hsome, if_neg hm]
        rfl

/-- A sync makes the merge of the entries of a stored bundle with those of the pairings, whatever
they are, and has nothing to do when it is repeated. A missing bundle stays missing. -/
theorem run_sync_aligned (st : Settings) (hs : s.Reached) (hf : s.faults = [])
    (ns tenant : String) (ps : List ResolvedPairing) :
    ∃ o s', (sync st ns tenant ps).run s = (.ok o, s') ∧ Aligned ns tenant ps s s' o ∧
      (sync st ns tenant ps).run s' = (.ok .unchanged, s') := by
  have hc : s.Calm := ⟨hs.filed, hf⟩
  have hnone := mergeInto_upserted s (tenantKey ns tenant) (candidates ps)
  refine ⟨_, _, run_sync st ns tenant hc ps, aligned_upserted s ns tenant ps, ?_⟩
  rw [run_sync st ns tenant (hc.upserted_of_fits fits_mergeInto), Upsert.outcome, hnone,
    Store.upserted_of_none hnone]

end run

section contenders

def contender (microservice area : String) : ResolvedPairing :=
  ⟨.forPair "dc1" "a" microservice (.obj [("from", .str microservice)]), area⟩

def contenders : List ResolvedPairing :=
  [contender "b" "x", contender "c" "x", contender "d" "y"]

def bundled (entries : List (String × String)) : Store :=
  (({} : Store).perform (.create .configMap (make (tenantKey "dc1" "a") (.ofList entries)))).2

theorem reached_bundled (entries : List (String × String)) : (bundled entries).Reached :=
  .call _ .fresh

/-- The entry of the second pairing of `x`, an outdated one of `y` and one of an area that no
pairing is of. -/
def outdated : Store := bundled [("x", (contender "c" "x").entry), ("y", "old"), ("z", "old")]

def renewed : Store := ((sync {} "dc1" "a" contenders).run outdated).2

/-- The first entry is kept, although the pairing is not the first of its area. -/
theorem run_sync_outdated : outdated.Reached ∧ outdated.faults = [] ∧
    (sync {} "dc1" "a" contenders).run outdated = (.ok .updated, renewed) ∧
    Aligned "dc1" "a" contenders outdated renewed .updated ∧
    entries renewed "dc1" "a" =
      .ofList [("x", (contender "c" "x").entry), ("y", (contender "d" "y").entry)] ∧
    (sync {} "dc1" "a" contenders).run renewed = (.ok .unchanged, renewed) := by
  obtain ⟨o, s', hrun, haligned, hagain⟩ :=
    run_sync_aligned {} (reached_bundled _ : outdated.Reached) rfl "dc1" "a" contenders
  have hupdated : (sync {} "dc1" "a" contenders).run outdated = (.ok .updated, renewed) := rfl
  cases hrun.symm.trans hupdated
  exact ⟨reached_bundled _, rfl, hupdated, haligned, rfl, hagain⟩

end contenders

section applied
variable {s : Store} {ns tenant area : String} {ps ps' qs : List ResolvedPairing} {d : Labels}

def applyAll (st : Settings) (ns tenant : String) : List ResolvedPairing → Program Unit
  | [] => return
  | q :: qs => do
    let _ ← applyEntry st ns tenant q.area q.pairing.content.configuration
    applyAll st ns tenant qs

theorem run_applyAll (st : Settings) (hs : s.Calm) (ns tenant : String)
    (qs : List ResolvedPairing) :
    ∃ s', (applyAll st ns tenant qs).run s = (.ok (), s') ∧ s'.Calm ∧
      entries s' ns tenant = overwrite (entries s ns tenant) qs := by
  induction qs generalizing s with
  | nil => exact ⟨s, rfl, hs, rfl⟩
  | cons q qs ih =>
    have hstep := run_applyEntry st ns tenant hs q.area q.pairing.content.configuration
    obtain ⟨s', hrun, hs', hentries⟩ := ih (hs.upserted_of_fits fits_setEntry)
    refine ⟨s', ?_, hs', ?_⟩
    · rw [applyAll, run_bind_of_ok hstep, hrun]
    · rw [hentries, entries_setEntry]
      rfl

theorem contains_overwrite :
    (overwrite d qs).contains area ↔ area ∈ qs.map (·.area) ∨ d.contains area := by
  by_cases h : area ∈ qs.map (·.area)
  · obtain ⟨q, -, -, hfind⟩ := exists_find?_overwrite h
    simp [SortedMap.contains, hfind, h]
  · simp [SortedMap.contains, find?_overwrite_of_notMem h, h]

/-- Once an entry was set for each area of the pairings, every entry is that of one of them. -/
theorem merges_overwrite (hd : ∀ area, d.contains area → area ∈ ps.map (·.area))
    (hqs : ∀ q ∈ qs, q ∈ ps) (hcover : ∀ p ∈ ps, p.area ∈ qs.map (·.area)) :
    Merges ps (overwrite d qs) (overwrite d qs) := by
  have hareas {area : String} : area ∈ qs.map (·.area) ↔ area ∈ ps.map (·.area) := by
    constructor
    · intro h
      obtain ⟨q, hq, rfl⟩ := List.mem_map.1 h
      exact List.mem_map_of_mem (hqs q hq)
    · intro h
      obtain ⟨p, hp, rfl⟩ := List.mem_map.1 h
      exact hcover p hp
  refine merges_self (fun area => ?_) fun area harea => ?_
  · rw [contains_overwrite, hareas]
    exact or_iff_left_of_imp (hd area)
  · obtain ⟨q, hq, rfl, hfind⟩ := exists_find?_overwrite (hareas.2 harea)
    exact ⟨q, hqs q hq, rfl, hfind d⟩

/-- Pairings set their entries in any order and any number of times, with at least one for each
area. A sync with the same pairings, in whatever order, then finds nothing to do, if there was no
bundle before or one of their areas only. -/
theorem rests_sync_of_applied (st : Settings) (hs : s.Reached) (hf : s.faults = [])
    (hd : ∀ area, (entries s ns tenant).contains area → area ∈ ps.map (·.area))
    (hqs : ∀ q ∈ qs, q ∈ ps) (hcover : ∀ p ∈ ps, p.area ∈ qs.map (·.area))
    (hperm : ps'.Perm ps) :
    ∃ s', (applyAll st ns tenant qs).run s = (.ok (), s') ∧
      (sync st ns tenant ps').Rests s' .unchanged := by
  obtain ⟨s', hrun, hs', hentries⟩ := run_applyAll st ⟨hs.filed, hf⟩ ns tenant qs
  have hmerges : Merges ps' (entries s' ns tenant) (entries s' ns tenant) := by
    rw [hentries]
    refine merges_overwrite (fun area h => ?_) (fun q hq => hperm.mem_iff.2 (hqs q hq))
      fun p hp => hcover p (hperm.mem_iff.1 hp)
    exact (hperm.map _).mem_iff.2 (hd area h)
  have hnone : mergeInto (candidates ps') (s'.find? .configMap (tenantKey ns tenant)) = none := by
    refine mergeInto_eq_none_iff.2 fun cm hcm => ?_
    rwa [entries_of_some hcm] at hmerges
  refine ⟨s', hrun, ?_⟩
  rw [Rests, run_sync st ns tenant hs', Upsert.outcome, hnone, Store.upserted_of_none hnone]

/-- The pairing `c` comes twice, and last. -/
theorem rests_sync_contenders : (bundled [("x", "old")]).Reached ∧
    ∃ s', (applyAll {} "dc1" "a"
        [contender "c" "x", contender "d" "y", contender "b" "x", contender "c" "x"]).run
          (bundled [("x", "old")]) = (.ok (), s') ∧
      (sync {} "dc1" "a" [contender "d" "y", contender "c" "x", contender "b" "x"]).Rests s'
        .unchanged := by
  have hd : ∀ area, (entries (bundled [("x", "old")]) "dc1" "a").contains area →
      area ∈ contenders.map (·.area) := by
    intro area h
    have hkeys : (entries (bundled [("x", "old")]) "dc1" "a").keys = ["x"] := rfl
    rw [SortedMap.contains_iff_mem_keys, hkeys, List.mem_singleton] at h
    subst h
    decide
  exact ⟨reached_bundled _, rests_sync_of_applied {} (reached_bundled _) rfl hd (by decide)
    (by decide) (by decide)⟩

end applied

end Bundle
end TenantOperator
