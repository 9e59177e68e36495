import TenantOperator.Proofs.Store.Footprint

/-! Runs on a store without faults, one equation for each way to use the store; and what a run tells
that ended well, on a store with faults too. -/
namespace TenantOperator

namespace Resource
variable {k : Kind}

theorem name_eq {r : Resource k} {n : String} (h : r.metadata.name = some n) : r.name = n := by
  simp [name, Metadata.anyName, h]

theorem key_eq {r : Resource k} {n : String} (h : r.metadata.name = some n) :
    (⟨n, r.metadata.ns⟩ : Key) = r.key := by
  rw [← name_eq h]
  rfl

end Resource

namespace Store
variable {s : Store} {k : Kind}

/-- No faults, and every object under its own key. -/
structure Calm (s : Store) : Prop where
  filed : s.Filed
  faults : s.faults = []

theorem Filed.calm_setFaults (hs : s.Filed) : Calm { s with faults := [] } :=
  ⟨fun _ _ _ hr => hs (by rwa [find?_setFaults] at hr), rfl⟩

/-- The store once `r` was made sure to exist. -/
def ensured (s : Store) (r : Resource k) : Store :=
  if (s.find? k r.key).isSome then s else s.put r.key r

def upserted (s : Store) (key : Key) (change : Option (Resource k) → Option (Resource k)) : Store :=
  match change (s.find? k key) with
  | none => s
  | some r => s.put key r

theorem create_of_named {r : Resource k} {n : String} (h : r.metadata.name = some n) :
    s.create r = if (s.find? k r.key).isSome then (.error (.alreadyExists k.name n), s)
      else (.ok (s.write r.key r).1, s.put r.key r) := by
  simp only [create, h, Resource.key_eq h]
  rfl

theorem update_of_found {r current : Resource k} (h : s.find? k r.key = some current)
    (hv : r.metadata.resourceVersion = current.metadata.resourceVersion) :
    s.update r = (.ok (s.write r.key r).1, s.put r.key r) := by
  simp only [update, h, hv]
  simp [put]

theorem Calm.put (hs : s.Calm) {key : Key} {r : Resource k} (h : r.key = key) :
    (s.put key r).Calm :=
  ⟨hs.filed.put h, by rw [faults_put, hs.faults]⟩

theorem Calm.remove (hs : s.Calm) (k : Kind) (key : Key) : (s.remove k key).Calm :=
  ⟨hs.filed.remove k key, by rw [faults_remove, hs.faults]⟩

theorem Calm.ensured (hs : s.Calm) (r : Resource k) : (s.ensured r).Calm := by
  unfold Store.ensured
  split
  · exact hs
  · exact hs.put rfl

theorem Calm.upserted (hs : s.Calm) {key : Key} {change : Option (Resource k) → Option (Resource k)}
    (hc : ∀ r, change (s.find? k key) = some r → r.key = key) : (s.upserted key change).Calm := by
  unfold Store.upserted
  split
  · exact hs
  · rename_i r h
    exact hs.put (hc r h)

theorem Calm.perform (hs : s.Calm) (c : Call) : s.perform c = s.answer c := by
  simp [Store.perform, takeFault, hs.faults]

theorem faults_answer (s : Store) (c : Call) : (s.answer c).2.faults = s.faults := by
  rcases s.answer_snd c with h | ⟨k, r, -, h⟩ | ⟨k, key, -, h⟩ <;> rw [h]
  · exact faults_put ..
  · exact faults_remove ..

theorem Calm.answer (hs : s.Calm) (c : Call) : (s.answer c).2.Calm :=
  ⟨hs.filed.answer c, by rw [faults_answer, hs.faults]⟩

theorem agreeOff_ensured (s : Store) (r : Resource k) :
    AgreeOff (fun l key => l = k ∧ key = r.key) s (s.ensured r) := by
  unfold ensured
  split
  · exact .refl _ s
  · exact s.agreeOff_put r.key r

theorem agreeOff_upserted (s : Store) (key : Key)
    (change : Option (Resource k) → Option (Resource k)) :
    AgreeOff (fun l key' => l = k ∧ key' = key) s (s.upserted key change) := by
  unfold upserted
  split
  · exact .refl _ s
  · exact s.agreeOff_put key _

theorem isSome_find?_ensured (s : Store) (r : Resource k) :
    ((s.ensured r).find? k r.key).isSome := by
  unfold ensured
  split
  · assumption
  · simp

theorem find?_ensured_of_some {r : Resource k} {l : Kind} {key : Key} {r' : Resource l}
    (h : s.find? l key = some r') : (s.ensured r).find? l key = some r' := by
  unfold ensured
  split
  · exact h
  · rename_i hn
    rw [find?_put_of_ne s _ r, h]
    rintro ⟨rfl, rfl⟩
    simp [h] at hn

theorem isSome_find?_ensured_of_isSome {l : Kind} {r : Resource k} {key : Key}
    (h : (s.find? l key).isSome) : ((s.ensured r).find? l key).isSome := by
  obtain ⟨x, hx⟩ := Option.isSome_iff_exists.1 h
  rw [find?_ensured_of_some hx]
  rfl

theorem eq_of_find?_ensured {r x : Resource k} {key : Key}
    (h : (s.ensured r).find? k key = some x) :
    s.find? k key = some x ∨ key = r.key ∧ ∃ v, x = r.withVersion v := by
  unfold ensured at h
  split at h
  · exact Or.inl h
  · by_cases hk : key = r.key
    · subst hk
      rw [find?_put_self] at h
      cases h
      exact Or.inr ⟨rfl, _, rfl⟩
    · rw [find?_put_of_ne s (by simp [hk])] at h
      exact Or.inl h

theorem ensured_of_isSome {r : Resource k} (h : (s.find? k r.key).isSome) : s.ensured r = s :=
  if_pos h

theorem upserted_of_none {key : Key} {change : Option (Resource k) → Option (Resource k)}
    (h : change (s.find? k key) = none) : s.upserted key change = s := by
  simp [upserted, h]

theorem find?_upserted (s : Store) (key : Key)
    (change : Option (Resource k) → Option (Resource k)) :
    (s.upserted key change).find? k key =
      match change (s.find? k key) with
      | none => s.find? k key
      | some r => some (r.withVersion (some (toString (s.version + 1)))) := by
  unfold upserted
  cases change (s.find? k key) with
  | none => rfl
  | some r => exact s.find?_put_self key r

end Store

namespace Program
variable {α β : Type} {s s' : Store}

theorem run_bind_ok {p : Program α} {f : α → Program β} {b : β} :
    (p >>= f).run s = (.ok b, s') ↔
      ∃ a s₁, p.run s = (.ok a, s₁) ∧ (f a).run s₁ = (.ok b, s') := by
  rw [run_bind]
  rcases p.run s with ⟨e | a, s₁⟩
  · simp
  · constructor
    · exact fun h => ⟨a, s₁, rfl, h⟩
    · rintro ⟨_, _, he, h⟩
      cases he
      exact h

theorem run_bind_of_ok {p : Program α} {f : α → Program β} {a : α} {s₁ : Store}
    (h : p.run s = (.ok a, s₁)) : (p >>= f).run s = (f a).run s₁ := by
  rw [run_bind, h]

theorem run_perform (c : Call) (s : Store) : (perform c).run s = s.perform c := rfl

/-- `p` gives `a` and leaves the store as it is. -/
def Rests (p : Program α) (s : Store) (a : α) : Prop := p.run s = (.ok a, s)

theorem run_bind_pure_eq {p : Program α} {a : α} {b b' : β} {s₁ : Store}
    (hp : p.run s = (.ok a, s₁)) (h : (p >>= fun _ => pure b).run s = (.ok b', s')) :
    b = b' ∧ s₁ = s' := by
  rw [run_bind_of_ok hp] at h
  cases h
  exact ⟨rfl, rfl⟩

theorem rests_ofExcept {r : Except Error α} {a : α} (h : r = .ok a) (s : Store) :
    (ofExcept r).Rests s a := by
  rw [h]
  rfl

theorem Rests.bind {p : Program α} {f : α → Program β} {a : α} {b : β} (hp : p.Rests s a)
    (hf : (f a).Rests s b) : (p >>= f).Rests s b :=
  (run_bind_of_ok hp).trans hf

theorem run_ofExcept_ok {r : Except Error α} {a : α} (h : (ofExcept r).run s = (.ok a, s')) :
    r = .ok a ∧ s' = s := by
  cases h
  exact ⟨rfl, rfl⟩

theorem run_perform_ok {c : Call} {a : c.Answer} (h : (perform c).run s = (.ok a, s')) :
    s.answer c = (.ok a, s') := by
  rw [run_perform] at h
  rcases s.perform_eq c with he | ⟨p, l, he⟩
  · rw [← he, h]
  · rw [he] at h
    cases h

theorem run_get_ok {k : Kind} {key : Key} {r : Option (Resource k)}
    (h : (get k key).run s = (.ok r, s')) : s.find? k key = r ∧ s' = s := by
  have ha := run_perform_ok h
  cases ha
  exact ⟨rfl, rfl⟩

theorem run_list_ok {k : Kind} {ns : Option String} {labels : Labels} {l : List (Resource k)}
    (h : (list k ns labels).run s = (.ok l, s')) : s.select k ns labels = l ∧ s' = s := by
  have ha := run_perform_ok h
  cases ha
  exact ⟨rfl, rfl⟩

end Program

open Program Store

theorem run_getRequired_ok {s s' : Store} {k : Kind} {key : Key} {r : Resource k}
    (h : (getRequired k key).run s = (.ok r, s')) : s.find? k key = some r ∧ s' = s := by
  obtain ⟨a, s₁, ha, hr⟩ := run_bind_ok.1 h
  obtain ⟨hf, rfl⟩ := run_get_ok ha
  cases a with
  | none => cases hr
  | some a =>
    cases hr
    exact ⟨hf, rfl⟩

theorem isAlreadyExists_fault (p : PendingFault) : p.error.isAlreadyExists = false := by
  rcases p with ⟨k, v, f⟩
  cases f <;> rfl

theorem run_ensureCreated_of_answered {s : Store} {k : Kind} {r : Resource k} {n : String}
    (hn : r.metadata.name = some n)
    (h : s.perform (.create k r) = s.answer (.create k r)) :
    (ensureCreated r).run s = (.ok (s.find? k r.key).isNone, s.ensured r) := by
  have hc : (Program.create r).run s = s.create r := h
  rw [ensureCreated, run_bind, run_attempt, hc, create_of_named hn]
  by_cases hr : (s.find? k r.key).isSome
  · rw [if_pos hr, ensured_of_isSome hr]
    obtain ⟨c, hc⟩ := Option.isSome_iff_exists.1 hr
    rw [hc]
    rfl
  · rw [if_neg hr, Store.ensured, if_neg hr]
    rw [Option.not_isSome_iff_eq_none] at hr
    rw [hr]
    rfl

theorem run_ensureCreated_ok {s s' : Store} {k : Kind} {r : Resource k} {n : String} {b : Bool}
    (hn : r.metadata.name = some n) (h : (ensureCreated r).run s = (.ok b, s')) :
    (s.find? k r.key).isNone = b ∧ s' = s.ensured r := by
  rcases s.perform_eq (.create k r) with he | ⟨p, l, he⟩
  · cases (run_ensureCreated_of_answered hn he).symm.trans h
    exact ⟨rfl, rfl⟩
  · have hc : (Program.create r).run s = s.perform (.create k r) := rfl
    rw [ensureCreated, run_bind, run_attempt, hc, he] at h
    simp only [isAlreadyExists_fault] at h
    cases h

namespace Store.Calm
variable {s : Store} {k : Kind}

theorem run_get (hs : s.Calm) (key : Key) : (Program.get k key).run s = (.ok (s.find? k key), s) :=
  hs.perform (.get k key)

theorem rests_get (hs : s.Calm) {key : Key} {r : Option (Resource k)} (h : s.find? k key = r) :
    (Program.get k key).Rests s r := by
  rw [← h]
  exact hs.run_get key

theorem run_list (hs : s.Calm) (ns : Option String) (labels : Labels) :
    (Program.list k ns labels).run s = (.ok (s.select k ns labels), s) :=
  hs.perform (.list k ns labels)

theorem run_delete (hs : s.Calm) (k : Kind) (key : Key) :
    (Program.delete k key).run s = (.ok (s.find? k key).isSome, s.remove k key) :=
  hs.perform (.delete k key)

theorem run_getRequired (hs : s.Calm) {key : Key} {r : Resource k} (h : s.find? k key = some r) :
    (getRequired k key).run s = (.ok r, s) := by
  rw [getRequired, run_bind_of_ok (hs.run_get key), h]
  rfl

theorem run_ensureCreated (hs : s.Calm) {r : Resource k} {n : String}
    (hn : r.metadata.name = some n) :
    (ensureCreated r).run s = (.ok (s.find? k r.key).isNone, s.ensured r) :=
  run_ensureCreated_of_answered hn (hs.perform (.create k r))

theorem rests_ensureCreated (hs : s.Calm) {r : Resource k} {n : String}
    (hn : r.metadata.name = some n) (h : (s.find? k r.key).isSome) :
    (ensureCreated r).Rests s false := by
  obtain ⟨c, hc⟩ := Option.isSome_iff_exists.1 h
  have hrun := hs.run_ensureCreated hn
  rw [ensured_of_isSome h, hc] at hrun
  exact hrun

end Store.Calm

namespace Upsert
variable {k : Kind}

/-- What one round of an upsert that meets no other writer reports. -/
def outcome (change : Option (Resource k) → Option (Resource k)) (current : Option (Resource k)) :
    WriteOutcome :=
  match change current with
  | none => .unchanged
  | some _ => if current.isSome then .updated else .created

theorem run_write {s : Store} (hs : s.Calm) {key : Key} {r : Resource k} (hk : r.key = key)
    (hn : s.find? k key = none → r.metadata.name.isSome) :
    (write (s.find? k key) r).run s =
      (.ok (if (s.find? k key).isSome then .updated else .created), s.put key r) := by
  subst hk
  cases hc : s.find? k r.key with
  | none =>
    obtain ⟨n, hn⟩ := Option.isSome_iff_exists.1 (hn hc)
    have h : (Program.create r).run s = s.create r := hs.perform (.create k r)
    rw [write, run_bind, h, create_of_named hn, hc]
    rfl
  | some current =>
    let r' := r.withVersion current.metadata.resourceVersion
    have h : (Program.update r').run s = s.update r' := hs.perform (.update k r')
    have hu : s.update r' = (.ok (s.write r.key r').1, s.put r.key r) :=
      update_of_found (r := r') hc rfl
    show (Program.update r' >>= fun _ => pure WriteOutcome.updated).run s = _
    rw [run_bind, h, hu]
    rfl

/-- The change keeps an object at its key, and a new one has a name. -/
def Fits (key : Key) (change : Option (Resource k) → Option (Resource k)) : Prop :=
  ∀ current r, (∀ c, current = some c → c.key = key) → change current = some r →
    r.key = key ∧ (current = none → r.metadata.name.isSome)

theorem Fits.find? {s : Store} {key : Key} {change : Option (Resource k) → Option (Resource k)}
    (h : Fits key change) (hs : s.Filed) {r : Resource k} (hr : change (s.find? k key) = some r) :
    r.key = key ∧ (s.find? k key = none → r.metadata.name.isSome) :=
  h _ r (fun _ hc => hs hc) hr

end Upsert

/-- Without faults and other writers, the first round of an upsert settles it. -/
theorem Store.Calm.run_upsert {s : Store} (hs : s.Calm) {k : Kind} (key : Key) (n : Nat)
    {change : Option (Resource k) → Option (Resource k)} (hk : Upsert.Fits key change) :
    (upsert key n change).run s =
      (.ok (Upsert.outcome change (s.find? k key)), s.upserted key change) := by
  obtain ⟨m, hm⟩ : ∃ m, max n 1 = m + 1 := ⟨max n 1 - 1, by omega⟩
  rw [upsert, upsertWith, hm, Upsert.rounds, run_bind, run_bind, run_attempt, hs.run_get]
  cases hc : change (s.find? k key) with
  | none =>
    simp only [hc, Upsert.outcome, upserted_of_none hc]
    rfl
  | some r =>
    have hu : s.upserted key change = s.put key r := by simp only [Store.upserted, hc]
    obtain ⟨hkey, hname⟩ := hk.find? hs.filed hc
    have hw := Upsert.run_write hs hkey hname
    simp only [hc, hu, Upsert.outcome, run_bind, run_attempt, hw, run_pure]
    rfl

theorem Store.Calm.upserted_of_fits {s : Store} (hs : s.Calm) {k : Kind} {key : Key}
    {change : Option (Resource k) → Option (Resource k)} (hk : Upsert.Fits key change) :
    (s.upserted key change).Calm :=
  hs.upserted fun _ hr => (hk.find? hs.filed hr).1

end TenantOperator
