import TenantOperator.Proofs.Interleaving.Publish
import TenantOperator.Proofs.Interleaving.Runs
import TenantOperator.Proofs.Tenancy.Matrix

/-! A sync that races with reconciles of new pairings. The sync drops the entries of all areas that
it did not find in use when it began, so the entry of a new pairing is safe if its area was in use
by then, or if the pairing's reconcile begins after the sync; otherwise it may be lost. -/
namespace TenantOperator
open Program Store

/-- Tenants and microservices stay as they are, no pairing goes, and the bundle keeps its entries
for some areas. -/
structure Store.Grows (ns tenant : String) (K : String → Prop) (s s' : Store) : Prop where
  tenants : ∀ key, s'.find? .tenant key = s.find? .tenant key
  microservices : ∀ key, s'.find? .microservice key = s.find? .microservice key
  pairings : ∀ key p, s.find? .pairing key = some p → s'.find? .pairing key = some p
  entries : ∀ area, K area → (Bundle.entries s ns tenant).contains area →
    (Bundle.entries s' ns tenant).contains area

/-- The pairing is stored, and the entry for the area of its microservice if that is to be kept. -/
def Store.Entered (ns tenant : String) (K : String → Prop) (key : Key) (s : Store) : Prop :=
  ∃ p, s.find? .pairing key = some p ∧ ∀ m,
    s.find? .microservice (.inSpace ns p.content.microserviceId) = some m →
      K m.content.functionalArea → (Bundle.entries s ns tenant).contains m.content.functionalArea

namespace Store.Grows
variable {ns tenant : String} {K L : String → Prop} {s s' : Store}

theorem rely : Rely (Grows ns tenant K) where
  faults s l :=
    { tenants := fun _ => s.find?_setFaults l _ _
      microservices := fun _ => s.find?_setFaults l _ _
      pairings := fun key p h => by rwa [find?_setFaults]
      entries := fun area _ h => by rwa [Bundle.entries_congr (s.find?_setFaults l _ _)] }
  trans _ _ _ h h' :=
    { tenants := fun key => (h'.tenants key).trans (h.tenants key)
      microservices := fun key => (h'.microservices key).trans (h.microservices key)
      pairings := fun key p hp => h'.pairings key p (h.pairings key p hp)
      entries := fun area hk hc => h'.entries area hk (h.entries area hk hc) }

theorem mono (h : Grows ns tenant K s s') (hlk : ∀ area, L area → K area) :
    Grows ns tenant L s s' :=
  { h with entries := fun area hl => h.entries area (hlk area hl) }

theorem of_agreeOff (h : AgreeOff (fun k _ => k = .service ∨ k = .deployment ∨ k = .ingress) s s') :
    Grows ns tenant K s s' where
  tenants key := h _ _ (by simp)
  microservices key := h _ _ (by simp)
  pairings key p hp := by rwa [h _ _ (by simp)]
  entries area _ hc := by rwa [Bundle.entries_congr (h _ _ (by simp))]

theorem of_bundle {key : Key} (h : AgreeOff (fun k key' => k = .configMap ∧ key' = key) s s')
    (he : ∀ area, K area → (Bundle.entries s ns tenant).contains area →
      (Bundle.entries s' ns tenant).contains area) : Grows ns tenant K s s' where
  tenants key := h _ _ (by simp)
  microservices key := h _ _ (by simp)
  pairings key p hp := by rwa [h _ _ (by simp)]
  entries := he

theorem of_create_pairing (s : Store) (p : Pairing) :
    Grows ns tenant K s (s.answer (.create .pairing p)).2 := by
  have h (k : Kind) (hk : k ≠ .pairing) (key : Key) :
      (s.answer (.create .pairing p)).2.find? k key = s.find? k key :=
    s.find?_answer_of_not_writes fun hw => hk (Call.writes_create.1 hw).1.symm
  exact
    { tenants := h _ (by simp)
      microservices := h _ (by simp)
      pairings := fun key q hq => find?_create_of_some p hq
      entries := fun area _ hc => by rwa [Bundle.entries_congr (h _ (by simp) _)] }

theorem of_call {c : Call} (hc : ∃ p : Pairing, c = .create .pairing p) (s : Store) :
    Grows ns tenant K s (s.answer c).2 := by
  obtain ⟨p, rfl⟩ := hc
  exact of_create_pairing s p

theorem entered {key : Key} (h : Grows ns tenant K s s') (he : Entered ns tenant K key s) :
    Entered ns tenant K key s' := by
  obtain ⟨p, hp, he⟩ := he
  refine ⟨p, h.pairings _ _ hp, fun m hm hk => ?_⟩
  rw [h.microservices] at hm
  exact h.entries _ hk (he m hm hk)

theorem around (hlk : ∀ area, L area → K area) :
    Around (Grows ns tenant L) (Grows ns tenant K) (Grows ns tenant L) where
  rely := rely
  total := rely
  others _ _ h := h
  own _ _ h := h.mono hlk
  faults := rely.faults

/-- The sync keeps the entries of areas that are in use when it begins. -/
theorem acts_syncTenant (st : Settings) (hs : s.Sound)
    (halive : (s.find? .tenant (.inSpace ns tenant)).isSome)
    (hK : ∀ area, K area → area ∈ s.areas ns tenant) :
    (Teardown.syncTenant st ns tenant).Acts (Grows ns tenant K) (Grows ns tenant K)
      (fun _ _ => True) s := by
  refine (Teardown.acts_syncTenant st (around fun _ => id) hs (fun s' h id => h.microservices _)
    (fun s' h => ?_) (fun s s' ha => ?_) (Q := fun _ => True) (fun _ _ _ => id) fun s' h =>
      ⟨?_, trivial⟩).imp fun _ _ _ => trivial
  · rwa [h.tenants]
  · exact of_agreeOff (ha.mono fun k key hk => Or.inr (Or.inr hk.1))
  · refine of_bundle (s'.agreeOff_upserted _ _) fun area hk hc => ?_
    exact Bundle.contains_entries_mergeInto.2 ⟨Bundle.isSome_of_contains hc, hK area hk⟩

/-- The reconcile of a pairing only adds to the bundle, and what it adds is there in the end if it
is to be kept. -/
theorem acts_pairing (st : Settings) (hs : s.Sound) {key : Key} {p : Pairing}
    (halive : (s.find? .tenant (.inSpace ns tenant)).isSome)
    (hp : s.find? .pairing key = some p) (ht : p.content.tenantId = tenant) :
    (Reconcile.pairing st ns key).Acts (Grows ns tenant K) (Grows ns tenant fun _ => True)
      (fun o s' => o = .converged ∧ Entered ns tenant K key s') s := by
  subst ht
  refine Reconcile.acts_pairing_live st (around fun _ _ => trivial) hs hp (fun s' h => ?_)
    (fun s s' => of_agreeOff) (fun s₁ s₂ h => h.entered)
    fun s₁ m s' h h' hm => ⟨?_, p, ?_, fun m' hm' _ => ?_⟩
  · rwa [h.tenants]
  · refine of_bundle (s'.agreeOff_upserted _ _) fun area _ hc => ?_
    exact Bundle.contains_entries_setEntry.2 (Or.inr hc)
  · rw [s'.agreeOff_upserted _ _ _ _ (by simp)]
    exact h'.pairings _ _ (h.pairings _ _ hp)
  · -- The microservice is still the one that was read.
    rw [s'.agreeOff_upserted _ _ _ _ (by simp), h'.microservices, hm] at hm'
    cases hm'
    exact Bundle.contains_entries_setEntry.2 (Or.inl rfl)

end Store.Grows

namespace Pool
variable {κ : Type} [DecidableEq κ] (st : Settings) {ns tenant : String} {names : κ → String}
  {s : Store}

def ofSync (st : Settings) (ns tenant : String) (names : κ → String) (s : Store) :
    Pool (Option κ) Bool where
  store := s
  runs
    | none => Teardown.syncTenant st ns tenant
    | some i => (fun o => decide (o = .converged)) <$>
        reconcile st ⟨.pairing, .inSpace ns (names i)⟩

/-- A pairing of the tenant is stored when the run of its reconcile begins. -/
def BeginsStored (P : Pool (Option κ) Bool) (ns tenant : String) (names : κ → String)
    (es : List (Event (Option κ))) (i : κ) : Prop :=
  ∃ before after, es = before ++ .run (some i) :: after ∧ .run (some i) ∉ before ∧
    ∃ p, (P.exec before).store.find? .pairing (.inSpace ns (names i)) = some p ∧
      p.content.tenantId = tenant

def bundleEffect (ns tenant : String) (K : String → Prop) : Option κ → Store → Store → Prop
  | none => Grows ns tenant K
  | some _ => Grows ns tenant fun _ => True

def bundleResult (ns tenant : String) (names : κ → String) (K : String → Prop) :
    Option κ → Bool → Store → Prop
  | none => fun _ _ => True
  | some i => fun _ => Entered ns tenant K (.inSpace ns (names i))

theorem acts_of_beginsStored (hs : s.Sound)
    (halive : (s.find? .tenant (.inSpace ns tenant)).isSome) {K L : String → Prop}
    {es before after : List (Event (Option κ))} {i : κ}
    (hi : BeginsStored (ofSync st ns tenant names s) ns tenant names es i)
    (he : es = before ++ .run (some i) :: after) (hbefore : .run (some i) ∉ before)
    (hgrows : Grows ns tenant L s ((ofSync st ns tenant names s).exec before).store) :
    ((ofSync st ns tenant names s).runs (some i)).Acts (Grows ns tenant K)
      (bundleEffect ns tenant K (some i)) (bundleResult ns tenant names K (some i))
      ((ofSync st ns tenant names s).exec before).store := by
  obtain ⟨before', after', he', hbefore', p, hp, ht⟩ := hi
  obtain rfl := before_unique hbefore hbefore' (he.symm.trans he')
  have hsound := (leads_exec (ofSync st ns tenant names s) before).sound hs
  refine acts_map Grows.rely ((Grows.acts_pairing st hsound ?_ hp ht).imp fun _ _ h => h.2)
  rwa [hgrows.tenants]

omit [DecidableEq κ] in
theorem guarantee_bundleEffect {K : String → Prop} (i : Option κ) {s s' : Store}
    (h : bundleEffect ns tenant K i s s') : Grows ns tenant K s s' := by
  cases i with
  | none => exact h
  | some i => exact h.mono fun _ _ => trivial

/-- Areas that are in use when the sync begins may be kept from the start. -/
theorem waiting_of_kept (hs : s.Sound) (halive : (s.find? .tenant (.inSpace ns tenant)).isSome)
    {K : String → Prop} {before after : List (Event (Option κ))}
    (hcalls : ∀ c, .call c ∈ before → ∃ p : Pairing, c = .create .pairing p)
    (hstored : ∀ i, BeginsStored (ofSync st ns tenant names s) ns tenant names (before ++ after) i)
    (hK : ∀ b a, before = b ++ .run none :: a → .run none ∉ b → ∀ area, K area →
      area ∈ ((ofSync st ns tenant names s).exec b).store.areas ns tenant) :
    Grows ns tenant K s ((ofSync st ns tenant names s).exec before).store ∧
      ∀ i, .run i ∈ before → Waiting (Grows ns tenant K) (bundleEffect ns tenant K i)
        (bundleResult ns tenant names K i) ((ofSync st ns tenant names s).exec before) i := by
  have hexec := waiting_exec_same (P := ofSync st ns tenant names s)
    (G := bundleEffect ns tenant K) (Q := bundleResult ns tenant names K) before Grows.rely
    (fun i s s' => guarantee_bundleEffect i) (fun c hc => Grows.of_call (hcalls c hc)) (by
    intro j b a he hb hgrows
    right
    cases j with
    | none =>
      refine Grows.acts_syncTenant st ((leads_exec _ b).sound hs) ?_ (hK b a he hb)
      rw [hgrows.tenants]
      exact halive
    | some j =>
      have he' : before ++ after = b ++ .run (some j) :: (a ++ after) := by simp [he]
      exact acts_of_beginsStored st hs halive (hstored j) he' hb hgrows)
  exact ⟨hexec.1, fun i hi => hexec.2 i (Or.inr hi)⟩

theorem waiting_of_listed (hs : s.Sound) (halive : (s.find? .tenant (.inSpace ns tenant)).isSome)
    {es : List (Event (Option κ))}
    (hcalls : ∀ c, .call c ∈ es → ∃ p : Pairing, c = .create .pairing p)
    (hstored : ∀ i, BeginsStored (ofSync st ns tenant names s) ns tenant names es i)
    {before after : List (Event (Option κ))} (he : es = before ++ .run none :: after)
    (hbefore : .run none ∉ before) {i : κ} :
    let K := (· ∈ ((ofSync st ns tenant names s).exec before).store.areas ns tenant)
    Waiting (Grows ns tenant K) (bundleEffect ns tenant K (some i))
      (bundleResult ns tenant names K (some i)) ((ofSync st ns tenant names s).exec es)
      (some i) := by
  intro K
  have hstored' : ∀ i, BeginsStored (ofSync st ns tenant names s) ns tenant names (es ++ []) i := by
    simpa using hstored
  obtain ⟨b, a, he', -⟩ := hstored i
  refine (waiting_of_kept st hs halive hcalls hstored' fun b a he' hb area harea => ?_).2 (some i)
    (by simp [he'])
  obtain rfl := before_unique hbefore hb (he.symm.trans he')
  exact harea

theorem waiting_of_late (hs : s.Sound) (halive : (s.find? .tenant (.inSpace ns tenant)).isSome)
    {before after : List (Event (Option κ))}
    (hcalls : ∀ c, .call c ∈ before ++ after → ∃ p : Pairing, c = .create .pairing p)
    (hstored : ∀ i, BeginsStored (ofSync st ns tenant names s) ns tenant names (before ++ after) i)
    (hdone : ∃ r, ((ofSync st ns tenant names s).exec before).runs none = .done r) {i : κ}
    (hi : .run (some i) ∉ before) :
    Waiting (Grows ns tenant fun _ => True) (bundleEffect ns tenant (fun _ => True) (some i))
      (fun _ => Entered ns tenant (fun _ => True) (.inSpace ns (names i)))
      ((ofSync st ns tenant names s).exec (before ++ after)) (some i) := by
  -- While the sync lasts, no entry is safe.
  obtain ⟨hgrows, hwait⟩ := waiting_of_kept st (K := fun _ => False) hs halive
    (fun c hc => hcalls c (List.mem_append_left _ hc)) hstored fun _ _ _ _ _ h => h.elim
  -- Runs that began earlier may have lost their own entries, but they take none from others.
  have hend := (waiting_exec_same (P := (ofSync st ns tenant names s).exec before)
    (G := bundleEffect ns tenant fun _ => True)
    (Q := fun j _ s' => .run j ∉ before →
      ∀ i, j = some i → Entered ns tenant (fun _ => True) (.inSpace ns (names i)) s')
    after Grows.rely (fun i s s' => guarantee_bundleEffect i)
    (fun c hc => Grows.of_call (hcalls c (List.mem_append_right _ hc))) (by
    intro j b a he hb hgrows'
    cases j with
    | none =>
      obtain ⟨r, hr⟩ := hdone
      exact Or.inl (waiting_of_done Grows.rely hr fun _ _ _ i hi => by cases hi)
    | some j =>
      by_cases hj : .run (some j) ∈ before
      · exact Or.inl ((hwait _ hj).relying Grows.rely Grows.rely
          (fun _ _ h => h.mono fun _ h => h.elim) (fun _ _ h => h) fun _ _ hn => absurd hj hn)
      right
      rw [← exec_append, runs_exec_of_notMem hj]
      have he' : before ++ after = (before ++ b) ++ .run (some j) :: a := by simp [he]
      have hgrows'' := Grows.rely.trans hgrows (hgrows'.mono fun _ (h : False) => h.elim)
      rw [← exec_append] at hgrows''
      have hacts := acts_of_beginsStored st hs halive (hstored j) (K := fun _ => True) he'
        (by simp [hj, hb]) hgrows''
      refine hacts.imp fun _ _ h _ i hi => ?_
      cases hi
      exact h)).2 (some i)
  rw [exec_append]
  obtain ⟨b, a, he, -⟩ := hstored i
  have hmem : .run (some i) ∈ before ++ after := by simp [he]
  obtain ⟨s₁, hl, hr, hw⟩ := hend (Or.inr ((List.mem_append.1 hmem).resolve_left hi))
  exact ⟨s₁, hl, hr, hw.imp fun _ _ h => h hi i rfl⟩

/-- Pairings of a living tenant are made and reconciled while the tenant is synced, and all runs end
well. A pairing's entry is in the bundle in the end if its area was in use when the sync began, or
if its reconcile began after the sync was over. -/
theorem contains_entries_of_reconciled (hs : s.Reached)
    (halive : (s.find? .tenant (.inSpace ns tenant)).isSome) {es : List (Event (Option κ))}
    (hcalls : ∀ c, .call c ∈ es → ∃ p : Pairing, c = .create .pairing p)
    (hstored : ∀ i, BeginsStored (ofSync st ns tenant names s) ns tenant names es i)
    {P : Pool (Option κ) Bool} (hP : (ofSync st ns tenant names s).exec es = P)
    (hok : ∀ i, P.runs i = .done (.ok true)) {i : κ} {p : Pairing}
    (hp : P.store.find? .pairing (.inSpace ns (names i)) = some p) {m : Microservice}
    (hm : P.store.find? .microservice (.inSpace ns p.content.microserviceId) = some m)
    (hcover :
      (∃ before after, es = before ++ .run none :: after ∧ .run none ∉ before ∧
        m.content.functionalArea ∈
          ((ofSync st ns tenant names s).exec before).store.areas ns tenant) ∨
      ∃ before after, es = before ++ after ∧ .run (some i) ∉ before ∧
        ∃ r, ((ofSync st ns tenant names s).exec before).runs none = .done r) :
    (Bundle.entries P.store ns tenant).contains m.content.functionalArea := by
  have hend : ∃ K : String → Prop, K m.content.functionalArea ∧
      Entered ns tenant K (.inSpace ns (names i)) P.store := by
    rcases hcover with ⟨before, after, he, hbefore, harea⟩ | ⟨before, after, rfl, hi, hdone⟩
    · have hwait := waiting_of_listed st hs.sound halive hcalls hstored he hbefore (i := i)
      rw [hP] at hwait
      obtain ⟨s₁, -, hr, he⟩ := hwait.result (hok (some i))
      exact ⟨_, harea, hr.entered he⟩
    · have hwait := waiting_of_late st hs.sound halive hcalls hstored hdone hi
      rw [hP] at hwait
      obtain ⟨s₁, -, hr, he⟩ := hwait.result (hok (some i))
      exact ⟨_, trivial, hr.entered he⟩
  obtain ⟨K, hk, p', hp', hentry⟩ := hend
  rw [hp] at hp'
  cases hp'
  exact hentry m hm hk

section overlap

def staffed : Store :=
  ((Matrix.declared.perform (.create .tenant (Matrix.bareTenant "a"))).2.perform
    (.create .inst Matrix.bareInstance)).2

theorem reached_staffed : staffed.Reached := .call _ (.call _ Matrix.reached_declared)

def newPairing : Call := .create .pairing (Pairing.forPair "dc1" "a" "c" .empty)

def newPairingName : Unit → String := fun _ => Naming.pairing "a" "c"

/-- The sync lists the pairings when the new one is there already, and the runs take turns. -/
def listedInTime : List (Event (Option Unit)) :=
  [.call newPairing, .run none] ++ List.replicate 11 (.run (some ())) ++
    (List.replicate 9 (.run none) ++ List.replicate 9 (.run (some ())))

/-- The sync lists the pairings before the new one is made, and writes after its reconcile. -/
def listedTooEarly : List (Event (Option Unit)) :=
  [.run none, .call newPairing] ++ List.replicate 20 (.run (some ())) ++
    List.replicate 9 (.run none)

/-- The entry of the new pairing is there, since its area was in use when the sync began. -/
theorem contains_entries_listedInTime :
    (Bundle.entries ((ofSync {} "dc1" "a" newPairingName staffed).exec listedInTime).store "dc1"
      "a").contains "c" := by
  have hcalls : ∀ c : Call, .call c ∈ listedInTime → ∃ p : Pairing, c = .create .pairing p := by
    intro c hc
    have hnew : c = newPairing := by simpa [listedInTime] using hc
    exact ⟨_, hnew⟩
  have hstored : ∀ i, BeginsStored (ofSync {} "dc1" "a" newPairingName staffed) "dc1" "a"
      newPairingName listedInTime i := fun () =>
    ⟨[.call newPairing, .run none], _, rfl, by simp,
      (Pairing.forPair "dc1" "a" "c" .empty).withVersion (some "6"), rfl, rfl⟩
  have hok : ∀ i, ((ofSync {} "dc1" "a" newPairingName staffed).exec listedInTime).runs i =
      .done (.ok true) := by
    intro i
    cases i <;> rfl
  exact contains_entries_of_reconciled {} reached_staffed rfl hcalls hstored rfl hok (i := ()) rfl
    (m := (Matrix.bareMicroservice "c").withVersion (some "3")) rfl
    (Or.inl ⟨[.call newPairing], _, rfl, by simp, by decide⟩)

/-- The sync drops the entry of a pairing that was made and reconciled after it listed the pairings:
not every reconciled pairing has its entry in the end. -/
theorem not_forall_contains_entries :
    ¬∀ (κ : Type) (_ : DecidableEq κ) (st : Settings) (s : Store) (ns tenant : String)
      (names : κ → String) (es : List (Event (Option κ))), s.Reached → s.faults = [] →
      (s.find? .tenant (.inSpace ns tenant)).isSome →
      (∀ c, .call c ∈ es → ∃ m cfg, c = .create .pairing (Pairing.forPair ns tenant m cfg)) →
      (∀ i, ∃ m cfg, ∃ before after : List (Event (Option κ)),
        es = before ++ .call (.create .pairing (Pairing.forPair ns tenant m cfg)) :: after ∧
          names i = Naming.pairing tenant m ∧ .run (some i) ∉ before) →
      (∀ i, ((ofSync st ns tenant names s).exec es).runs i = .done (.ok true)) →
      ∀ i p m, ((ofSync st ns tenant names s).exec es).store.find? .pairing
          (.inSpace ns (names i)) = some p → p.content.tenantId = tenant →
        ((ofSync st ns tenant names s).exec es).store.find? .microservice
          (.inSpace ns p.content.microserviceId) = some m →
        (Bundle.entries ((ofSync st ns tenant names s).exec es).store ns tenant).contains
          m.content.functionalArea := by
  intro h
  have hcalls : ∀ c : Call, .call c ∈ listedTooEarly →
      ∃ m cfg, c = .create .pairing (Pairing.forPair "dc1" "a" m cfg) := by
    intro c hc
    have hnew : c = newPairing := by simpa [listedTooEarly] using hc
    exact ⟨"c", .empty, hnew⟩
  have hok : ∀ i, ((ofSync {} "dc1" "a" newPairingName staffed).exec listedTooEarly).runs i =
      .done (.ok true) := by
    intro i
    cases i <;> rfl
  have hin := h Unit inferInstance {} staffed "dc1" "a" newPairingName listedTooEarly
    reached_staffed rfl rfl hcalls (fun _ => ⟨"c", .empty, [.run none], _, rfl, rfl, by simp⟩) hok
    () ((Pairing.forPair "dc1" "a" "c" .empty).withVersion (some "6"))
    ((Matrix.bareMicroservice "c").withVersion (some "3")) rfl rfl rfl
  cases hin

end overlap

end Pool
end TenantOperator
