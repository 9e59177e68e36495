import TenantOperator.Proofs.Interleaving.Waits

/-! Programs that are atomic among others. An upsert reads, changes and writes in several calls, but
when it ends well it has done all of it on the store of its last call; the look-up of a tenant's
pairings finds those that were there when it listed them, as long as no microservice changes. -/
namespace TenantOperator
open Program Store

namespace Upsert
variable {k : Kind} {key : Key} {change : Option (Resource k) → Option (Resource k)}
  {R G : Store → Store → Prop} {Q : WriteOutcome → Store → Prop} {s : Store}

/-- The guarantee and the postcondition of an upsert on `s` at once. -/
def Settles (key : Key) (change : Option (Resource k) → Option (Resource k))
    (G : Store → Store → Prop) (Q : WriteOutcome → Store → Prop) (s : Store) : Prop :=
  G s (s.upserted key change) ∧ Q (outcome change (s.find? k key)) (s.upserted key change)

theorem upserted_of_some {r : Resource k} (h : change (s.find? k key) = some r) :
    s.upserted key change = s.put key r := by
  simp only [upserted, h]

theorem Settles.put {r : Resource k} (h : Settles key change G Q s)
    (hr : change (s.find? k key) = some r) :
    G s (s.put key r) ∧ Q (outcome change (s.find? k key)) (s.put key r) := by
  rwa [Settles, upserted_of_some hr] at h

theorem acts_write {s₁ : Store} {r : Resource k} (hs : s₁.Sound) (hl : s₁.Leads s)
    (hr : change (s₁.find? k key) = some r) (hkey : r.key = key)
    (hf : ∀ l, G s { s with faults := l }) (h : Settles key change G Q s) :
    (write (s₁.find? k key) r).attempt.Acts R G (fun x s' =>
      (∀ o, x = .ok o → Q o s') ∧ ∀ e, x = .error e → ∃ l, s' = { s with faults := l }) s := by
  subst hkey
  cases hc : s₁.find? k r.key with
  | none =>
    rcases s.perform_create_cases r with ⟨e, l, he⟩ | ⟨hnone, hok⟩
    · refine ⟨by rw [he]; exact hf l, ?_⟩
      rw [he]
      exact ⟨fun o ho => (by cases ho), fun e' _ => ⟨l, rfl⟩⟩
    · have hwritten : change (s.find? k r.key) = some r := by rw [hnone, ← hc, hr]
      obtain ⟨hg, hq⟩ := h.put hwritten
      refine ⟨by rw [hok]; exact hg, ?_⟩
      rw [hok]
      refine ⟨fun o ho => ?_, fun e he => (by cases he)⟩
      cases ho
      rw [outcome, hnone, ← hc, hr, hc] at hq
      exact hq
  | some current =>
    let sent := r.withVersion current.metadata.resourceVersion
    have hsent : s.put sent.key sent = s.put r.key r := rfl
    rcases s.perform_update_cases sent with ⟨e, l, he⟩ | ⟨⟨found, hfound, hv⟩, hok⟩
    · refine ⟨by rw [he]; exact hf l, ?_⟩
      rw [he]
      exact ⟨fun o ho => (by cases ho), fun e' _ => ⟨l, rfl⟩⟩
    · -- The version that was sent is still the stored one, so the object is still the one read.
      obtain ⟨n, -, hn⟩ := hs.stamped hc
      have hsame : found = current := by
        refine hl.eq_of_version_eq hs hc hfound (hv ?_)
        show current.metadata.resourceVersion.isSome
        rw [hn]
        rfl
      rw [hsame] at hfound
      have hfound : s.find? k r.key = some current := hfound
      have hwritten : change (s.find? k r.key) = some r := by rw [hfound, ← hc, hr]
      obtain ⟨hg, hq⟩ := h.put hwritten
      rw [hsent] at hok
      refine ⟨by rw [hok]; exact hg, ?_⟩
      rw [hok]
      refine ⟨fun o ho => ?_, fun e he => (by cases he)⟩
      cases ho
      rw [outcome, hfound, ← hc, hr, hc] at hq
      exact hq

/-- The last call of a round finds the store on which the round is settled; a round that is lost
leaves the next one with a store that others could have made as well. -/
theorem waits_rounds (hR : Rely R) (hG : ∀ s l, G s { s with faults := l }) (hs : s.Sound)
    (hkey : ∀ current r, (∀ c, current = some c → c.key = key) → change current = some r →
      r.key = key)
    (h : ∀ s', s.Leads s' → R s s' → Settles key change G Q s') (n : Nat) :
    (rounds key (fun (_ : Unit) r => (.ok (change r), ())) n ()).Waits R G
      (fun x s' => ∀ o, x.1 = .ok o → Q o s') s := by
  induction n generalizing s with
  | zero => exact waits_pure fun o ho => by cases ho
  | succ n ih =>
    rw [rounds]
    refine waits_bind (Q := fun x s' => R s s' ∧ ∀ current, x = .ok current →
      current = s'.find? k key ∧ Settles key change G Q s') ?_ ?_
    · -- The answer to a read is what is stored at that moment.
      intro s₁ hl hr
      rcases s₁.perform_eq (.get k key) with he | ⟨p, l, he⟩ <;> rw [he]
      · refine ⟨hG s₁ s₁.faults, hr, fun current hc => ?_⟩
        cases hc
        exact ⟨rfl, h s₁ hl hr⟩
      · exact ⟨hG s₁ l, hR.trans hr (hR.faults s₁ l), fun current hc => by cases hc⟩
    · rintro x s₁ hc₁ ⟨hr₁, hx⟩
      have hs₁ := hc₁.leads.sound hs
      cases x with
      | error e => exact waits_pure fun o ho => by cases ho
      | ok current =>
        obtain ⟨rfl, hset⟩ := hx current rfl
        dsimp only
        cases hch : change (s₁.find? k key) with
        | none =>
          refine waits_pure fun o ho => ?_
          cases ho
          rw [Settles, upserted_of_none hch, outcome, hch] at hset
          exact hset.2
        | some r =>
          have hkey' := hkey _ r (fun c hc => hs₁.filed hc) hch
          refine waits_bind (Q := fun x s' => (∀ o, x = .ok o → Q o s') ∧
            ∀ e, x = .error e → R s s') ?_ ?_
          · refine waits_of_acts hR fun s₂ hl₂ hr₂ => ?_
            have hr := hR.trans hr₁ hr₂
            refine (acts_write hs₁ hl₂ hch hkey' (hG s₂) (h s₂ (hc₁.leads.trans hl₂) hr)).imp
              fun x s' hx => ⟨hx.1, fun e he => ?_⟩
            obtain ⟨l, rfl⟩ := hx.2 e he
            exact hR.trans hr (hR.faults s₂ l)
          · rintro x s₂ hc₂ ⟨hok, herr⟩
            cases x with
            | ok o => exact waits_pure fun o' ho => by cases ho; exact hok o rfl
            | error e =>
              dsimp only
              split
              · have hl := hc₁.leads.trans hc₂.leads
                refine ih (hl.sound hs) fun s' hl' hr' => ?_
                exact h s' (hl.trans hl') (hR.trans (herr e rfl) hr')
              · exact waits_pure fun o ho => by cases ho

end Upsert

/-- An upsert is atomic: the change applies to the object of the moment at which it is settled. -/
theorem waits_upsert {k : Kind} {key : Key} {change : Option (Resource k) → Option (Resource k)}
    {R G : Store → Store → Prop} {Q : WriteOutcome → Store → Prop} {s : Store} (hR : Rely R)
    (hG : ∀ s l, G s { s with faults := l }) (hs : s.Sound)
    (hkey : ∀ current r, (∀ c, current = some c → c.key = key) → change current = some r →
      r.key = key) (n : Nat)
    (h : ∀ s', s.Leads s' → R s s' → Upsert.Settles key change G Q s') :
    (upsert key n change).Waits R G Q s := by
  refine waits_bind (Upsert.waits_rounds hR hG hs hkey h _) fun x s' _ hx => ?_
  obtain ⟨r, u⟩ := x
  cases r with
  | ok o => exact hx o rfl
  | error e => exact waits_fail e

section resolve
variable {R G : Store → Store → Prop} {ns : String} {s₀ s : Store}

namespace ResolvedPairing

theorem waits_remember (hR : Rely R) (hG : ∀ s l, G s { s with faults := l })
    (hm : ∀ s', R s₀ s' → ∀ id,
      s'.find? .microservice (.inSpace ns id) = s₀.find? .microservice (.inSpace ns id))
    {areas : SortedMap String (Option String)} (ha : Remembers s₀ ns areas) (h₀ : R s₀ s)
    (id : String) :
    (remember ns areas id).Waits R G (fun areas' s' => R s₀ s' ∧ Remembers s₀ ns areas' ∧
      areas'.find? id = some ((s₀.find? .microservice (.inSpace ns id)).map
        fun m => m.content.functionalArea)) s := by
  rw [remember]
  cases hc : areas.find? id with
  | some area => exact waits_pure ⟨h₀, ha, by rw [hc, ha id area hc]⟩
  | none =>
    refine waits_bind (Q := fun m s' => R s₀ s' ∧
      m = s₀.find? .microservice (.inSpace ns id)) ?_ ?_
    · refine waits_of_acts hR fun s' _ hr => acts_get (hG s') ?_
      have h' := hR.trans h₀ hr
      exact ⟨h', hm s' h' id⟩
    · rintro m s' - ⟨h', rfl⟩
      refine waits_pure ⟨h', fun id' area h => ?_, SortedMap.find?_insert_self ..⟩
      by_cases hid : id' = id
      · subst hid
        rw [SortedMap.find?_insert_self] at h
        exact Option.some.inj h
      · rw [SortedMap.find?_insert_of_ne _ hid] at h
        exact ha id' area h

theorem waits_lookUp (hR : Rely R) (hG : ∀ s l, G s { s with faults := l })
    (hm : ∀ s', R s₀ s' → ∀ id,
      s'.find? .microservice (.inSpace ns id) = s₀.find? .microservice (.inSpace ns id))
    {areas : SortedMap String (Option String)} (ha : Remembers s₀ ns areas) (h₀ : R s₀ s)
    (ps : List Pairing) :
    (lookUp ns areas ps).Waits R G
      (fun rest s' => rest = ps.filterMap (s₀.resolve? ns) ∧ R s₀ s') s := by
  induction ps generalizing areas s with
  | nil => exact waits_pure ⟨rfl, h₀⟩
  | cons p ps ih =>
    rw [lookUp_cons]
    refine waits_bind (waits_remember hR hG hm ha h₀ p.content.microserviceId) ?_
    rintro areas' s₁ - ⟨h₁, ha', hid⟩
    refine waits_bind (ih ha' h₁) ?_
    rintro rest s₂ - ⟨rfl, h₂⟩
    rw [hid, List.filterMap_cons, Store.resolve?]
    cases s₀.find? .microservice (.inSpace ns p.content.microserviceId) <;>
      exact waits_pure ⟨rfl, h₂⟩

end ResolvedPairing

theorem acts_resolveForTenant (hR : Rely R) (hG : ∀ s l, G s { s with faults := l })
    (tenant : String)
    (hm : ∀ s', R s s' → ∀ id,
      s'.find? .microservice (.inSpace ns id) = s.find? .microservice (.inSpace ns id)) :
    (resolveForTenant ns tenant).Acts R G (fun ps s' => ps = s.resolved ns tenant ∧ R s s') s := by
  refine acts_bind hR (Q := fun ps s' =>
    ps = s.select .pairing (some ns) (Naming.tenantSelector tenant) ∧ R s s') ?_ ?_
  · exact acts_list (hG s) ⟨rfl, hR.refl s⟩
  · rintro ps s₁ - ⟨rfl, h₁⟩
    have hempty : ResolvedPairing.Remembers s ns ∅ := fun _ _ h => by simp at h
    refine waits_bind (ResolvedPairing.waits_lookUp hR hG hm hempty h₁ _) ?_
    rintro rest s₂ - ⟨rfl, h₂⟩
    exact waits_pure ⟨rfl, h₂⟩

end resolve

end TenantOperator
