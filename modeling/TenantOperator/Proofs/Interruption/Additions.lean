import TenantOperator.Proofs.Interruption.Resolver
import TenantOperator.Proofs.Store.Faults

/-! What a run of the resolver adds, whatever faults the store holds. The loop pairs a first part of
its microservices and ends with the first one that it cannot pair. -/
namespace TenantOperator
namespace Matrix
open Program Store

variable {s x s' : Store} {ns tenant : String} {ms ms' : List Microservice} {keys keys' : List Key}

/-- From `s` to `s'` nothing changed that was there. What is new are pairings under `keys`, each one
of a microservice of `ms`, with the configuration of its template. -/
structure Gains (ns tenant : String) (ms : List Microservice) (s s' : Store) (keys : List Key) :
    Prop where
  kept : ∀ ⦃k : Kind⦄ ⦃key : Key⦄ ⦃r : Resource k⦄, s.find? k key = some r → s'.find? k key = some r
  new_iff : ∀ k key, s.find? k key = none ∧ (s'.find? k key).isSome ↔ k = .pairing ∧ key ∈ keys
  nodup : keys.Nodup
  made : ∀ key ∈ keys, ∃ m ∈ ms, key = .inSpace ns (Naming.pairing tenant m.name) ∧ ∃ t v,
    s.find? .microserviceTemplate (.clusterWide m.content.configurationId) = some t ∧
    s'.find? .pairing key =
      some ((Pairing.forPair ns tenant m.name t.content.configuration).withVersion v)

namespace Gains

theorem of_same (h : ∀ k key, s'.find? k key = s.find? k key) : Gains ns tenant ms s s' [] where
  kept k key r hr := by rwa [h]
  new_iff k key := by
    rw [h]
    cases s.find? k key <;> simp
  nodup := .nil
  made key hkey := by cases hkey

theorem find?_eq (h : Gains ns tenant ms s s' keys) {k : Kind} (hk : k ≠ .pairing) (key : Key) :
    s'.find? k key = s.find? k key := by
  cases hr : s.find? k key with
  | some r => exact h.kept hr
  | none =>
    refine Option.not_isSome_iff_eq_none.1 fun hsome => ?_
    exact hk ((h.new_iff k key).1 ⟨hr, hsome⟩).1

theorem trans (h : Gains ns tenant ms s x keys) (h' : Gains ns tenant ms' x s' keys') :
    Gains ns tenant (ms ++ ms') s s' (keys ++ keys') where
  kept k key r hr := h'.kept (h.kept hr)
  new_iff k key := by
    rw [List.mem_append, and_or_left, ← h.new_iff, ← h'.new_iff]
    cases hs : s.find? k key with
    | some r => simp [h.kept hs]
    | none =>
      cases hx : x.find? k key with
      | some r => simp [h'.kept hx]
      | none => simp
  nodup := by
    refine List.nodup_append.2 ⟨h.nodup, h'.nodup, ?_⟩
    rintro key hkey _ hkey' rfl
    have hsome := ((h.new_iff _ _).2 ⟨rfl, hkey⟩).2
    rw [((h'.new_iff _ _).2 ⟨rfl, hkey'⟩).1] at hsome
    cases hsome
  made key hkey := by
    rcases List.mem_append.1 hkey with hkey | hkey
    · obtain ⟨m, hm, hk, t, v, ht, hp⟩ := h.made key hkey
      exact ⟨m, List.mem_append_left _ hm, hk, t, v, ht, h'.kept hp⟩
    · obtain ⟨m, hm, hk, t, v, ht, hp⟩ := h'.made key hkey
      rw [h.find?_eq (by simp)] at ht
      exact ⟨m, List.mem_append_right _ hm, hk, t, v, ht, hp⟩

theorem ensured (s : Store) (ns tenant : String) {m : Microservice} {t : MicroserviceTemplate}
    (ht : s.find? .microserviceTemplate (.clusterWide m.content.configurationId) = some t) :
    let p : Pairing := Pairing.forPair ns tenant m.name t.content.configuration
    Gains ns tenant [m] s (s.ensured p)
      (if (s.find? .pairing p.key).isNone then [p.key] else []) := by
  intro p
  cases hp : s.find? .pairing p.key with
  | some q =>
    rw [ensured_of_isSome (by rw [hp]; rfl)]
    exact .of_same fun _ _ => rfl
  | none =>
    have hput : s.ensured p = s.put p.key p := if_neg (by simp [hp])
    rw [hput]
    refine ⟨fun k key r hr => ?_, fun k key => ?_, by simp, fun key hkey => ?_⟩
    · rw [← hput]
      exact find?_ensured_of_some hr
    · by_cases hk : k = .pairing ∧ key = p.key
      · obtain ⟨rfl, rfl⟩ := hk
        simp [hp]
      · rw [find?_put_of_ne s hk]
        simp only [Option.isNone_none, if_true, List.mem_singleton, hk, iff_false, not_and]
        intro hnone
        simp [hnone]
    · obtain rfl := List.mem_singleton.1 hkey
      exact ⟨m, by simp, rfl, t, _, ht, s.find?_put_self p.key p⟩

theorem keys_eq_nil (h : Gains ns tenant ms s s keys) : keys = [] := by
  refine List.eq_nil_iff_forall_not_mem.2 fun key hkey => ?_
  obtain ⟨hnone, hsome⟩ := (h.new_iff _ key).2 ⟨rfl, hkey⟩
  rw [hnone] at hsome
  cases hsome

end Gains

/-- What the loop does for one microservice: the template is read, then the pairing made sure of. -/
def pair (ns tenant : String) (m : Microservice) : Program Bool := do
  let c ← templateConfiguration m
  ensureCreated (Pairing.forPair ns tenant m.name c)

theorem pairAll_cons (ns tenant : String) (m : Microservice) (ms : List Microservice) :
    pairAll ns tenant (m :: ms) = do
      let made ← pair ns tenant m
      let rest ← pairAll ns tenant ms
      return (if made then 1 else 0) + rest := by
  rw [pairAll, pair, Program.bind_assoc]

theorem run_pair_cases (s : Store) (ns tenant : String) (m : Microservice) :
    (∃ e l, (pair ns tenant m).run s = (.error e, { s with faults := l })) ∨
    ∃ made x keys, (pair ns tenant m).run s = (.ok made, x) ∧ Gains ns tenant [m] s x keys ∧
      keys.length = if made then 1 else 0 := by
  rw [pair, templateConfiguration, getRequired, Program.bind_assoc, Program.bind_assoc]
  rcases run_get_bind_cases s .microserviceTemplate
    (.clusterWide m.content.configurationId) _ with ⟨e, s', hs, h⟩ | ⟨-, h⟩ <;> rw [h]
  · obtain ⟨l, rfl⟩ := hs.rest
    exact Or.inl ⟨e, l, rfl⟩
  cases ht : s.find? .microserviceTemplate (.clusterWide m.content.configurationId) with
  | none => exact Or.inl ⟨_, s.faults, rfl⟩
  | some t =>
    let p : Pairing := Pairing.forPair ns tenant m.name t.content.configuration
    rcases run_ensureCreated_cases (s := s) (r := p) (n := Naming.pairing tenant m.name) rfl with
      ⟨e, s', hs, h⟩ | ⟨-, h⟩
    · obtain ⟨l, rfl⟩ := hs.rest
      exact Or.inl ⟨e, l, h⟩
    · refine Or.inr ⟨_, _, _, h, .ensured s ns tenant ht, ?_⟩
      cases s.find? .pairing p.key <;> rfl

/-- The loop pairs a first part of its microservices. It ends there, or with the one that comes next
and cannot be paired. -/
theorem run_pairAll_cases (s : Store) (ns tenant : String) (ms : List Microservice) :
    ∃ l keys x, (pairAll ns tenant l).run s = (.ok keys.length, x) ∧ Gains ns tenant l s x keys ∧
      (ms = l ∨ ∃ m rest e fs, ms = l ++ m :: rest ∧
        (pair ns tenant m).run x = (.error e, { x with faults := fs }) ∧
        (pairAll ns tenant ms).run s = (.error e, { x with faults := fs })) := by
  induction ms generalizing s with
  | nil => exact ⟨[], [], s, rfl, .of_same fun _ _ => rfl, Or.inl rfl⟩
  | cons m ms ih =>
    rcases run_pair_cases s ns tenant m with ⟨e, fs, he⟩ | ⟨made, s₁, new, hmade, hnew, hlen⟩
    · refine ⟨[], [], s, rfl, .of_same fun _ _ => rfl, Or.inr ⟨m, ms, e, fs, rfl, he, ?_⟩⟩
      rw [pairAll_cons, run_bind, he]
    · obtain ⟨l, keys, x, hl, hgains, hrest⟩ := ih s₁
      refine ⟨m :: l, new ++ keys, x, ?_, hnew.trans hgains, ?_⟩
      · rw [pairAll_cons, run_bind_of_ok hmade, run_bind_of_ok hl, List.length_append, hlen]
        rfl
      · rcases hrest with rfl | ⟨q, rest, e, fs, rfl, hq, hend⟩
        · exact Or.inl rfl
        · refine Or.inr ⟨q, rest, e, fs, rfl, hq, ?_⟩
          rw [pairAll_cons, run_bind_of_ok hmade, run_bind, hend]

theorem eq_zero_of_rests_pairAll {n : Nat} (h : (pairAll ns tenant ms).Rests s n) : n = 0 := by
  obtain ⟨l, keys, x, hl, hgains, rfl | ⟨m, rest, e, fs, rfl, -, he⟩⟩ :=
    run_pairAll_cases s ns tenant ms
  · cases hl.symm.trans h
    rw [hgains.keys_eq_nil]
    rfl
  · cases he.symm.trans h

theorem rests_of_run_resolveTenant {t : Tenant} {n : Nat} (hs : s'.Filed)
    (h : (resolveTenant t).run s = (.ok n, s')) :
    (resolveTenant t).Rests { s' with faults := [] } 0 := by
  obtain ⟨ns, hns, -, hcomplete⟩ := run_resolveTenant_ok h
  have hcalm : Store.Calm { s' with faults := [] } := hs.calm_setFaults
  have hsame : Stage ns (· = t.name) s' { s' with faults := [] } :=
    .of_shared (fun _ => hcalm) fun _ _ _ => find?_setFaults ..
  obtain ⟨k, hk⟩ := rests_resolveTenant hcalm hns (hcomplete.stage hsame)
  have hpairs := hk
  rw [Rests, run_resolveTenant hcalm hns] at hpairs
  rwa [eq_zero_of_rests_pairAll hpairs] at hk

/-- A list is struck, or the loop runs over what is unpaired. -/
theorem run_resolveTenant_cases (s : Store) {t : Tenant} (hns : t.metadata.ns = some ns) :
    (s.FaultDue .microservice .list ∨ s.FaultDue .pairing .list) ∧
      (∃ e l, (resolveTenant t).run s = (.error e, { s with faults := l })) ∨
    ¬(s.FaultDue .microservice .list ∨ s.FaultDue .pairing .list) ∧
      (resolveTenant t).run s = (pairAll ns t.name (unpaired s ns t.name)).run s := by
  simp only [resolveTenant, hns]
  rcases run_list_bind_cases s .microservice (some ns) ∅ _ with ⟨e, x, hx, he⟩ | ⟨hno, he⟩ <;>
    rw [he]
  · obtain ⟨l, rfl⟩ := hx.rest
    exact Or.inl ⟨Or.inl hx.faultDue, e, l, rfl⟩
  rcases run_list_bind_cases s .pairing (some ns) (Naming.tenantSelector t.name) _ with
    ⟨e, x, hx, he⟩ | ⟨hno', he⟩ <;> rw [he]
  · obtain ⟨l, rfl⟩ := hx.rest
    exact Or.inl ⟨Or.inr hx.faultDue, e, l, rfl⟩
  · exact Or.inr ⟨by simp [hno, hno'], rfl⟩

/-- Whatever faults there are, the resolver pairs a first part of the microservices that lack a
pairing, in the order of the store. If it ends well this part is all of them, it reports how many
pairings are new, and called again it finds nothing to do. Otherwise a list failed, and nothing is
new, or the microservice that comes next could not be paired. -/
theorem run_resolveTenant_gains (hs : s.Reached) {t : Tenant} (hns : t.metadata.ns = some ns)
    {r : Except Error Nat} (h : (resolveTenant t).run s = (r, s')) :
    ∃ l keys, Gains ns t.name l s s' keys ∧
      (∀ m ∈ l, m ∈ s.select .microservice (some ns) ∅ ∧
        ∀ p ∈ s.select .pairing (some ns) (Naming.tenantSelector t.name),
          p.content.microserviceId ≠ m.name) ∧
      (∀ n, r = .ok n → l = unpaired s ns t.name ∧ keys.length = n ∧
        (resolveTenant t).Rests { s' with faults := [] } 0) ∧
      (∀ e, r = .error e →
        (s.FaultDue .microservice .list ∨ s.FaultDue .pairing .list) ∧ keys = [] ∨
        ∃ m rest x, unpaired s ns t.name = l ++ m :: rest ∧
          (pairAll ns t.name l).run s = (.ok keys.length, x) ∧
          (pair ns t.name m).run x = (.error e, s')) ∧
      (s.FaultDue .microservice .list ∨ s.FaultDue .pairing .list →
        keys = [] ∧ ∃ e, r = .error e) := by
  have hlacks {l : List Microservice} (hl : l <+: unpaired s ns t.name) :
      ∀ m ∈ l, m ∈ s.select .microservice (some ns) ∅ ∧ _ := fun m hm =>
    (List.mem_filter.1 (hl.subset hm)).imp_right lacks_iff.1
  rcases run_resolveTenant_cases s hns with ⟨hlist, e, fs, he⟩ | ⟨hlist, hrun⟩
  · cases he.symm.trans h
    refine ⟨[], [], .of_same fun _ _ => s.find?_setFaults .., hlacks List.nil_prefix,
      fun n hn => ?_, fun e _ => Or.inl ⟨hlist, rfl⟩, fun _ => ⟨rfl, e, rfl⟩⟩
    cases hn
  obtain ⟨l, keys, x, hl, hgains, hall | ⟨m, rest, e, fs, hsplit, hm, he⟩⟩ :=
    run_pairAll_cases s ns t.name (unpaired s ns t.name)
  · rw [hall] at hrun
    cases (hrun.trans hl).symm.trans h
    refine ⟨l, keys, hgains, hlacks (hall ▸ List.prefix_rfl), fun n hn => ?_, fun e he => ?_,
      fun hlist' => absurd hlist' hlist⟩
    · cases hn
      have hs' := (hs.run (resolveTenant t)).filed
      rw [h] at hs'
      exact ⟨hall.symm, rfl, rests_of_run_resolveTenant hs' h⟩
    · cases he
  · cases (hrun.trans he).symm.trans h
    refine ⟨l, keys, ?_, hlacks ⟨m :: rest, hsplit.symm⟩, fun n hn => ?_, fun e he => ?_,
      fun hlist' => absurd hlist' hlist⟩
    · have hlast : Gains ns t.name [] x { x with faults := fs } [] :=
        .of_same fun _ _ => x.find?_setFaults ..
      simpa using hgains.trans hlast
    · cases hn
    · cases he
      exact Or.inr ⟨m, rest, x, hsplit, hl, hm⟩

section untemplated

/-- The microservices `b-c` and `c` with their template, and `d` without one. -/
def untemplated : Store :=
  let d := bareMicroservice "d"
  (declared.perform (.create .microservice
    { d with content := { d.content with configurationId := "gone" } })).2

/-- The first two are paired before the third one fails. -/
theorem run_resolveTenant_gains_untemplated :
    untemplated.Reached ∧ (bareTenant "a").metadata.ns = some "dc1" ∧
    ∃ s' l keys, (resolveTenant (bareTenant "a")).run untemplated =
        (.error (.notFound Kind.microserviceTemplate.name "gone"), s') ∧
      Gains "dc1" "a" l untemplated s' keys ∧
      .inSpace "dc1" (Naming.pairing "a" "b-c") ∈ keys ∧
      .inSpace "dc1" (Naming.pairing "a" "c") ∈ keys ∧
      ∃ m rest x, unpaired untemplated "dc1" "a" = l ++ m :: rest ∧
        (pair "dc1" "a" m).run x =
          (.error (.notFound Kind.microserviceTemplate.name "gone"), s') := by
  have hs : untemplated.Reached := reached_declared.call _
  have hrun : (resolveTenant (bareTenant "a")).run untemplated =
      (.error (.notFound Kind.microserviceTemplate.name "gone"), _) := rfl
  obtain ⟨l, keys, hgains, -, -, herror, -⟩ := run_resolveTenant_gains hs rfl hrun
  have hfirst := (hgains.new_iff .pairing (.inSpace "dc1" (Naming.pairing "a" "b-c"))).1 ⟨rfl, rfl⟩
  have hsecond := (hgains.new_iff .pairing (.inSpace "dc1" (Naming.pairing "a" "c"))).1 ⟨rfl, rfl⟩
  rcases herror _ rfl with ⟨hlist, -⟩ | ⟨m, rest, x, hsplit, -, hm⟩
  · exact absurd hlist (by decide)
  · exact ⟨hs, rfl, _, l, keys, hrun, hgains, hfirst.2, hsecond.2, m, rest, x, hsplit, hm⟩

end untemplated

end Matrix
end TenantOperator
