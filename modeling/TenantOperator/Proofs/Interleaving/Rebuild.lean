import Mathlib.Data.List.Basic
import TenantOperator.Proofs.Interleaving.Atomic
import TenantOperator.Proofs.Interleaving.Runs
import TenantOperator.Proofs.Interleaving.Tidy
import TenantOperator.Proofs.Tenancy.Matrix

/-! Rebuilds that race. A rebuild stores the table of the pairings that it listed when it began, and
the write does not notice when others were made or deleted since. What is stored in the end is
therefore what the rebuild listed that ends last, and that is current only if nothing was to be
routed differently by then. -/
namespace TenantOperator
namespace Routing
open Program Store

variable {ns tenant : String} {s : Store}

/-- The stored table, or its absence, is as wanted. -/
def Holds (ns tenant : String) (wanted : Option Ingress) (s : Store) : Prop :=
  match wanted with
  | none => s.find? .ingress (tableKey ns tenant) = none
  | some wanted => replace wanted (s.find? .ingress (tableKey ns tenant)) = none

theorem current_iff_holds {st : Settings} :
    Current st s ns tenant ↔ Holds ns tenant (build ns tenant (s.resolved ns tenant)
      st.ingressClass) s := by
  rw [Current]
  cases build ns tenant (s.resolved ns tenant) st.ingressClass <;> exact Iff.rfl

theorem Holds.congr {wanted : Option Ingress} (h : Holds ns tenant wanted s) {s' : Store}
    (hs : s'.find? .ingress (tableKey ns tenant) = s.find? .ingress (tableKey ns tenant)) :
    Holds ns tenant wanted s' := by
  cases wanted <;> simpa only [Holds, hs] using h

theorem routePath_inj {e e' : String × String} (h : routePath e.1 e.2 = routePath e'.1 e'.2) :
    e = e' := by
  obtain ⟨path, service⟩ := e
  obtain ⟨path', service'⟩ := e'
  unfold routePath at h
  cases h
  rfl

theorem ofRules_inj {cls : Option String} {m m' : SortedMap String String}
    (h : (ofRules ns tenant cls m).content.spec = (ofRules ns tenant cls m').content.spec) :
    m = m' := by
  simp only [ofRules, Option.some.injEq, IngressSpec.mk.injEq, List.cons.injEq,
    RouteRule.mk.injEq, true_and, and_true] at h
  exact SortedMap.ext (List.map_injective_iff.2 (fun _ _ => routePath_inj) h)

theorem Holds.iff_rules_eq {ps ps' : List ResolvedPairing} {cls : Option String}
    (h : Holds ns tenant (build ns tenant ps cls) s) :
    Holds ns tenant (build ns tenant ps' cls) s ↔ rules ns tenant ps = rules ns tenant ps' := by
  refine ⟨fun h' => ?_, fun he => by rwa [build_eq, ← he, ← build_eq]⟩
  rw [build_eq] at h h'
  by_cases he : (rules ns tenant ps).isEmpty <;> by_cases he' : (rules ns tenant ps').isEmpty
  · rw [eq_empty_of_isEmpty he, eq_empty_of_isEmpty he']
  · rw [if_pos he] at h
    rw [if_neg he'] at h'
    obtain ⟨stored, hs, -⟩ := eq_of_replace_eq_none h'
    exact absurd (h.symm.trans hs) (by simp)
  · rw [if_neg he] at h
    rw [if_pos he'] at h'
    obtain ⟨stored, hs, -⟩ := eq_of_replace_eq_none h
    exact absurd (h'.symm.trans hs) (by simp)
  · rw [if_neg he] at h
    rw [if_neg he'] at h'
    obtain ⟨stored, hs, hspec⟩ := eq_of_replace_eq_none h
    obtain ⟨stored', hs', hspec'⟩ := eq_of_replace_eq_none h'
    obtain rfl : stored = stored' := Option.some.inj (hs.symm.trans hs')
    exact ofRules_inj (hspec.symm.trans hspec')

section among
variable {R G : Store → Store → Prop} (st : Settings)

theorem waits_delete (hG : ∀ s s', Store.AgreeOff (fun k key => k = .ingress ∧
      key = tableKey ns tenant) s s' → G s s') :
    (delete ns tenant).Waits R G (fun _ s => s.find? .ingress (tableKey ns tenant) = none) s := by
  refine waits_bind (Q := fun _ s => s.find? .ingress (tableKey ns tenant) = none) ?_ ?_
  · intro s' _ _
    have hframe := hG s' _ fun k key hk => s'.find?_perform_of_not_writes
      fun hw => hk (Call.writes_delete_only hw)
    refine ⟨hframe, ?_⟩
    cases ha : (s'.perform (.delete .ingress (tableKey ns tenant))).1 with
    | ok b => exact s'.find?_perform_delete (by rw [ha]; rfl)
    | error e => trivial
  · rintro b s' - h
    cases b <;> exact waits_pure h

/-- While no microservice changes, a rebuild leaves the table of the pairings that it found when it
began. -/
theorem acts_rebuild (hR : Rely R) (hs : s.Sound)
    (hm : ∀ s', R s s' → ∀ id,
      s'.find? .microservice (.inSpace ns id) = s.find? .microservice (.inSpace ns id))
    (hG : ∀ s s', Store.AgreeOff (fun k key => k = .ingress ∧ key = tableKey ns tenant) s s' →
      G s s') :
    (rebuild st ns tenant).Acts R G
      (fun _ => Holds ns tenant (build ns tenant (s.resolved ns tenant) st.ingressClass)) s := by
  have hfaults : ∀ s l, G s { s with faults := l } := fun s l =>
    hG s _ ((rely_agreeOff _).faults s l)
  refine acts_bind hR (acts_resolveForTenant hR hfaults tenant hm) ?_
  rintro ps s₁ hc ⟨rfl, -⟩
  cases hb : build ns tenant (s.resolved ns tenant) st.ingressClass with
  | none => exact waits_delete hG
  | some wanted =>
    refine waits_upsert hR hfaults (hc.leads.sound hs) ?_ _ fun s' _ _ => ⟨?_, ?_⟩
    · intro current r _ hr
      rw [replace_eq_some hr]
      exact (key_of_build hb).1
    · exact hG _ _ (s'.agreeOff_upserted _ _)
    · exact replace_upserted s' _ wanted

end among

end Routing

def Call.EditsPairing (c : Call) : Prop :=
  (∃ p : Pairing, c = .create .pairing p) ∨ ∃ key, c = .delete .pairing key

theorem Call.EditsPairing.agreeOff {c : Call} (h : c.EditsPairing) (s : Store) :
    Store.AgreeOff (fun k _ => k = .pairing) s (s.answer c).2 := by
  intro k key hk
  refine s.find?_answer_of_not_writes fun hw => hk ?_
  rcases h with ⟨p, rfl⟩ | ⟨key', rfl⟩
  · exact ((Call.writes_puts rfl).1 _ _ hw).1
  · exact (Call.writes_delete_only hw).1

namespace Pool
variable {ι : Type} [DecidableEq ι]

def ofRebuilds (st : Settings) (ns tenant : String) (s : Store) : Pool ι WriteOutcome :=
  ⟨s, fun _ => Routing.rebuild st ns tenant⟩

/-- When the rebuild that ends last ends, the table is the one of the pairings that were there when
it began. -/
theorem holds_of_last (st : Settings) {s : Store} (hs : s.Sound) {ns tenant : String}
    {before mid : List (Event ι)} {j : ι} (hj : .run j ∉ before)
    (hcalls : ∀ c, .call c ∈ before ++ .run j :: mid → c.EditsPairing) {P : Pool ι WriteOutcome}
    (hP : (ofRebuilds st ns tenant s).exec (before ++ .run j :: mid) = P)
    (hlast : ∀ r, P.runs j ≠ .done r) {o : WriteOutcome}
    (hok : (P.step (.run j)).runs j = .done (.ok o)) :
    Routing.Holds ns tenant (Routing.build ns tenant
      (((ofRebuilds st ns tenant s).exec before).store.resolved ns tenant) st.ingressClass)
      (P.step (.run j)).store := by
  let R : Store → Store → Prop := Store.AgreeOff fun k _ => k ≠ .microservice
  let G : Store → Store → Prop := Store.AgreeOff fun k key =>
    k = .ingress ∧ key = Routing.tableKey ns tenant
  let Q (i : ι) (_ : WriteOutcome) (s' : Store) : Prop := i = j →
    Routing.Holds ns tenant (Routing.build ns tenant
      (((ofRebuilds st ns tenant s).exec before).store.resolved ns tenant) st.ingressClass) s'
  have hR : Rely R := rely_agreeOff _
  have hGR : ∀ s s', G s s' → R s s' := fun s s' h => h.mono (by rintro _ _ ⟨rfl, -⟩; simp)
  have hcall : ∀ c, .call c ∈ before ++ .run j :: mid → ∀ s : Store, R s (s.answer c).2 :=
    fun c hc s => ((hcalls c hc).agreeOff s).mono (by rintro _ _ rfl; simp)
  have hwait := waiting_exec_same (P := ofRebuilds st ns tenant s) (G := fun _ => G) (Q := Q)
    (before ++ .run j :: mid) hR (fun _ => hGR) hcall fun i before' after he hi _ => by
      right
      have hsound := (leads_exec (ofRebuilds st ns tenant s) before').sound hs
      refine (Routing.acts_rebuild st hR hsound (fun s' h id => h _ _ (by simp))
        fun s s' h => h).imp ?_
      rintro o s' h rfl
      obtain rfl := before_unique hj hi he
      exact h
  rw [hP] at hwait
  have hacts := ((hwait.2 j (Or.inr (by simp))).done_or_acts).resolve_left
    fun ⟨r, hr⟩ => hlast r hr
  exact result_of_acts hacts hlast hok rfl

/-- Pairings are made and deleted while rebuilds of a table take their turns. Once all of them have
ended well, the table is current if and only if the one that ends last began when the same rules
were asked for as in the end. -/
theorem current_iff_rules_eq (st : Settings) {s : Store} (hs : s.Reached) {ns tenant : String}
    {before mid after : List (Event ι)} {j : ι} (hj : .run j ∉ before)
    (hcalls : ∀ c, .call c ∈ before ++ .run j :: mid ++ .run j :: after → c.EditsPairing)
    {P : Pool ι WriteOutcome}
    (hP : (ofRebuilds st ns tenant s).exec (before ++ .run j :: mid) = P)
    (hlast : ∀ r, P.runs j ≠ .done r) (hok : ∀ i, ∃ o, (P.step (.run j)).runs i = .done (.ok o)) :
    Routing.Current st (P.exec (.run j :: after)).store ns tenant ↔
      Routing.rules ns tenant
          (((ofRebuilds st ns tenant s).exec before).store.resolved ns tenant) =
        Routing.rules ns tenant ((P.exec (.run j :: after)).store.resolved ns tenant) := by
  obtain ⟨o, ho⟩ := hok j
  have hend := holds_of_last st hs.sound hj
    (fun c hc => hcalls c (List.mem_append_left _ hc)) hP hlast ho
  have hafter : Store.AgreeOff (fun k _ => k = .pairing) (P.step (.run j)).store
      (P.exec (.run j :: after)).store := by
    refine exec_of_done (rely_agreeOff _) (fun i => ?_) fun c hc =>
      (hcalls c (by simp [hc])).agreeOff
    obtain ⟨o, ho⟩ := hok i
    exact ⟨_, ho⟩
  rw [Routing.current_iff_holds]
  exact (hend.congr (hafter _ _ (by simp))).iff_rules_eq

section overtaking

/-- A pairing of the tenant `a` is made, then its rebuild begins. -/
def pairs : Bool → Call
  | false => .create .pairing (Pairing.forPair "dc1" "a" "c" .empty)
  | true => .create .pairing (Pairing.forPair "dc1" "a" "b-c" .empty)

/-- One rebuild has listed the pairing with `c` alone when that with `b-c` is made. -/
def listedEarly : List (Event Bool) := [.call (pairs false), .run false, .call (pairs true)]

/-- The table of both is stored first, then that of the one. -/
def overtaking : List (Event Bool) :=
  listedEarly ++ (List.replicate 5 (.run true) ++ List.replicate 3 (.run false))

def overtaken : Pool Bool WriteOutcome :=
  (ofRebuilds {} "dc1" "a" Matrix.declared).exec overtaking

/-- The same turns, but the table of both is stored last. -/
def caughtUp : Pool Bool WriteOutcome :=
  (ofRebuilds {} "dc1" "a" Matrix.declared).exec
    (listedEarly ++ .run true :: (List.replicate 3 (.run false) ++ List.replicate 3 (.run true)))

theorem editsPairing_pairs (i : Bool) : (pairs i).EditsPairing := by
  cases i <;> exact Or.inl ⟨_, rfl⟩

/-- It is current, since the rebuild that ends last lists both pairings. -/
theorem current_caughtUp :
    Routing.Current {} (caughtUp.exec [.run true]).store "dc1" "a" := by
  have hcalls : ∀ c : Call, .call c ∈ listedEarly ++ .run true ::
      (List.replicate 3 (.run false) ++ List.replicate 3 (.run true)) ++ [.run true] →
      c.EditsPairing := by
    intro c hc
    have hpair : c = pairs false ∨ c = pairs true := by simpa [listedEarly] using hc
    rcases hpair with rfl | rfl <;> exact editsPairing_pairs _
  have hlast : ∀ r, caughtUp.runs true ≠ .done r := fun r hr => by cases hr
  have hok : ∀ i, ∃ o, (caughtUp.step (.run true)).runs i = .done (.ok o) := by
    intro i
    cases i with
    | false => exact ⟨.created, rfl⟩
    | true => exact ⟨.updated, rfl⟩
  exact (current_iff_rules_eq {} Matrix.reached_declared (j := true) (by simp [listedEarly]) hcalls
    rfl hlast hok).2 rfl

/-- The table of all pairings is overtaken by the one that was computed before the second pairing
was made, although each rebuild begins after the pairing it is for. -/
theorem not_forall_current :
    ¬∀ (ι : Type) (_ : DecidableEq ι) (st : Settings) (s : Store) (ns tenant : String)
      (edit : ι → Call) (es : List (Event ι)), s.Reached → s.faults = [] →
      (∀ i, ∃ m, (∃ c, edit i = .create .pairing (Pairing.forPair ns tenant m c)) ∨
        edit i = .delete .pairing (.inSpace ns (Naming.pairing tenant m))) →
      (∀ c, .call c ∈ es → ∃ i, c = edit i) →
      (∀ i, ∃ before after : List (Event ι),
        es = before ++ .call (edit i) :: after ∧ .run i ∉ before) →
      (∀ i, ∃ o, ((ofRebuilds st ns tenant s).exec es).runs i = .done (.ok o)) →
      Routing.Current st ((ofRebuilds st ns tenant s).exec es).store ns tenant := by
  intro h
  have hedit : ∀ i, ∃ m,
      (∃ c, pairs i = .create .pairing (Pairing.forPair "dc1" "a" m c)) ∨
        pairs i = .delete .pairing (.inSpace "dc1" (Naming.pairing "a" m)) := by
    intro i
    cases i with
    | false => exact ⟨"c", Or.inl ⟨.empty, rfl⟩⟩
    | true => exact ⟨"b-c", Or.inl ⟨.empty, rfl⟩⟩
  have hcalls : ∀ c : Call, .call c ∈ overtaking → ∃ i, c = pairs i := by
    intro c hc
    have hpair : c = pairs false ∨ c = pairs true := by
      simpa [overtaking, listedEarly] using hc
    exact hpair.elim (⟨false, ·⟩) (⟨true, ·⟩)
  have hafter : ∀ i, ∃ before after : List (Event Bool),
      overtaking = before ++ .call (pairs i) :: after ∧ .run i ∉ before := by
    intro i
    cases i with
    | false => exact ⟨[], _, rfl, by simp⟩
    | true => exact ⟨[.call (pairs false), .run false], _, rfl, by simp⟩
  have hok : ∀ i, ∃ o, overtaken.runs i = .done (.ok o) := by
    intro i
    cases i with
    | false => exact ⟨.updated, rfl⟩
    | true => exact ⟨.created, rfl⟩
  have hcur := h Bool inferInstance {} Matrix.declared "dc1" "a" pairs _ Matrix.reached_declared rfl
    hedit hcalls hafter hok
  -- The stored table has one path, the wanted one has two.
  have hnot : ¬Routing.Current {} overtaken.store "dc1" "a" := by
    intro hc
    cases hc
  exact hnot hcur

end overtaking

end Pool
end TenantOperator
