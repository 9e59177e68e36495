import TenantOperator.Proofs.Areas.Merged
import TenantOperator.Proofs.Json.Text

/-! What an entry of a bundle tells of the configuration it stands for. A text stands for one
configuration of whole numbers, so comparing the texts of entries compares configurations: setting
an entry is skipped for the very configuration that is there, and a sync keeps an entry for the sake
of pairings with that configuration only. -/
namespace TenantOperator
namespace Bundle
open Program Store

section entries
variable {ps : List ResolvedPairing} {old new : Labels} {area e : String} {a b : Configuration}

theorem Merges.find?_iff (h : Merges ps old new) (hold : old.find? area = some e) :
    new.find? area = some e ↔ ∃ p ∈ ps, p.area = area ∧ p.entry = e := by
  constructor
  · intro hnew
    by_cases hlive : ∃ q ∈ ps, q.area = area ∧ old.find? area = some q.entry
    · obtain ⟨q, hq, harea, hq'⟩ := hlive
      exact ⟨q, hq, harea, Option.some.inj (hq'.symm.trans hold)⟩
    · -- The entry is that of the first pairing of the area.
      have hcontains : new.contains area := by rw [SortedMap.contains, hnew]; rfl
      obtain ⟨p, hp, harea⟩ := List.mem_map.1 ((h.areas area).1 hcontains)
      obtain ⟨q, hfirst⟩ := Option.isSome_iff_exists.1
        (List.find?_isSome (p := (·.area = area)) |>.2 ⟨p, hp, by simpa using harea⟩)
      have hentry := h.first hfirst fun q hq ha he => hlive ⟨q, hq, ha, he⟩
      exact ⟨q, List.mem_of_find?_eq_some hfirst, by simpa using List.find?_some hfirst,
        Option.some.inj (hentry.symm.trans hnew)⟩
  · rintro ⟨p, hp, rfl, rfl⟩
    exact h.kept p hp hold

theorem entry_inj (ha : a.isWhole = true) (hb : b.isWhole = true) :
    Configuration.entry a = Configuration.entry b ↔ a = b :=
  Json.text_inj ha hb

theorem outcome_eq_unchanged_iff {k : Kind} {change : Option (Resource k) → Option (Resource k)}
    {current : Option (Resource k)} :
    Upsert.outcome change current = .unchanged ↔ change current = none := by
  rw [Upsert.outcome]
  cases change current with
  | none => simp
  | some r => cases current <;> simp

end entries

section run
variable {s : Store} {ns tenant area : String} {a b : Configuration}

theorem run_applyEntry_iff (st : Settings) (hs : s.Calm) (ha : a.isWhole = true)
    (hb : b.isWhole = true)
    (hentry : (entries s ns tenant).find? area = some (Configuration.entry a)) :
    ∃ o s', (applyEntry st ns tenant area b).run s = (.ok o, s') ∧ (o = .unchanged ↔ a = b) := by
  refine ⟨_, _, run_applyEntry st ns tenant hs area b, ?_⟩
  rw [outcome_eq_unchanged_iff, setEntry_eq_none_iff, hentry, Option.some.injEq, entry_inj ha hb]

/-- A sync leaves an entry where a pairing of the area has its configuration, and nowhere else. -/
theorem run_sync_iff (st : Settings) (hs : s.Calm) {ps : List ResolvedPairing}
    (ha : a.isWhole = true) (hps : ∀ p ∈ ps, p.pairing.content.configuration.isWhole = true)
    (hentry : (entries s ns tenant).find? area = some (Configuration.entry a)) :
    ∃ o s', (sync st ns tenant ps).run s = (.ok o, s') ∧
      ((entries s' ns tenant).find? area = some (Configuration.entry a) ↔
        ∃ p ∈ ps, p.area = area ∧ p.pairing.content.configuration = a) := by
  refine ⟨_, _, run_sync st ns tenant hs ps, ?_⟩
  have hcontains : (entries s ns tenant).contains area := by rw [SortedMap.contains, hentry]; rfl
  obtain ⟨cm, hcm⟩ := Option.isSome_iff_exists.1 (isSome_of_contains hcontains)
  obtain ⟨cm', hcm', hmerges, -⟩ := (aligned_upserted s ns tenant ps).stored cm hcm
  rw [entries_of_some hcm] at hentry
  rw [entries_of_some hcm', hmerges.find?_iff hentry]
  refine exists_congr fun p => and_congr_right fun hp => and_congr_right fun _ => ?_
  exact entry_inj (hps p hp) ha

end run

/-- The text of an entry stands for one configuration. Setting an entry is therefore skipped exactly
for the configuration that is there, and a sync takes an entry for live exactly if a pairing of its
area has the configuration. -/
theorem entries_identify {a b : Configuration} (ha : a.isWhole = true) (hb : b.isWhole = true) :
    (Configuration.entry a = Configuration.entry b ↔ a = b) ∧
      ∀ (st : Settings) (s : Store) (ns tenant area : String) (ps : List ResolvedPairing),
        s.Reached → s.faults = [] →
        (∀ p ∈ ps, p.pairing.content.configuration.isWhole = true) →
        (entries s ns tenant).find? area = some (Configuration.entry a) →
        (∃ o s', (applyEntry st ns tenant area b).run s = (.ok o, s') ∧
          (o = .unchanged ↔ a = b)) ∧
        ∃ o s', (sync st ns tenant ps).run s = (.ok o, s') ∧
          ((entries s' ns tenant).find? area = some (Configuration.entry a) ↔
            ∃ p ∈ ps, p.area = area ∧ p.pairing.content.configuration = a) := by
  refine ⟨entry_inj ha hb, fun st s ns tenant area ps hs hf hps hentry => ?_⟩
  have hc : s.Calm := ⟨hs.filed, hf⟩
  exact ⟨run_applyEntry_iff st hc ha hb hentry, run_sync_iff st hc ha hps hentry⟩

/-- A configuration whose text has brackets, quotes and separators inside of strings. -/
def knotty : Configuration :=
  .obj [("a", .arr [.null, .bool true, .int (-3), .str "\",\"b\":[\\"]), ("c", .obj [])]

def knotted : Configuration :=
  .obj [("a", .arr [.null, .bool true, .int (-3), .str "\",\"b\":[\\\"],\"c\":\x7b\x7d"])]

theorem entries_identify_knotty :
    knotty.isWhole = true ∧ knotted.isWhole = true ∧
      Configuration.entry knotty ≠ Configuration.entry knotted ∧
      (bundled [("x", Configuration.entry knotty)]).Reached ∧
      (entries (bundled [("x", Configuration.entry knotty)]) "dc1" "a").find? "x" =
        some (Configuration.entry knotty) ∧
      (∃ o s', (applyEntry {} "dc1" "a" "x" knotted).run
          (bundled [("x", Configuration.entry knotty)]) = (.ok o, s') ∧ o ≠ .unchanged) ∧
      ∃ o s', (sync {} "dc1" "a" contenders).run
          (bundled [("x", Configuration.entry knotty)]) = (.ok o, s') ∧
        (entries s' "dc1" "a").find? "x" ≠ some (Configuration.entry knotty) := by
  have hne : knotty ≠ knotted := by decide
  have hentry : (entries (bundled [("x", Configuration.entry knotty)]) "dc1" "a").find? "x" =
      some (Configuration.entry knotty) := rfl
  obtain ⟨hinj, hruns⟩ := entries_identify (a := knotty) (b := knotted) (by decide) (by decide)
  obtain ⟨⟨o, s', hrun, ho⟩, o', s'', hrun', ho'⟩ :=
    hruns {} _ "dc1" "a" "x" contenders (reached_bundled _) rfl (by decide) hentry
  refine ⟨by decide, by decide, mt hinj.1 hne, reached_bundled _, hentry,
    ⟨o, s', hrun, mt ho.1 hne⟩, o', s'', hrun', mt ho'.1 ?_⟩
  decide

end Bundle
end TenantOperator
