import TenantOperator.Proofs.Interleaving.Log
import TenantOperator.Proofs.Interruption.Falters

/-! Upserts among other writers, turn by turn. A write goes through only on the object that was
read, so whatever the others do, an upsert that ends well changes what is stored at one of its
turns, or finds nothing to change. -/
namespace TenantOperator
open Program Store

namespace Upsert
variable {k : Kind} {key : Key} {change : Option (Resource k) → Option (Resource k)}

/-- What one call of an upsert makes of a store, what it writes, and what is left to do: it goes on
without a write, it finds nothing to change, or it writes the change of what is stored. -/
inductive Turn (key : Key) (change : Option (Resource k) → Option (Resource k)) (s : Store) :
    Store → Option (Kind × Key) → Program WriteOutcome → Prop
  | on {s' : Store} {rest : Program WriteOutcome}
      (hsame : ∀ l key', s'.find? l key' = s.find? l key')
      (hrest : ∀ o, rest ≠ .done (.ok o)) : Turn key change s s' none rest
  | idle (hr : change (s.find? k key) = none) :
      Turn key change s s none (.done (.ok .unchanged))
  | wrote {r : Resource k} {o : WriteOutcome} (hr : change (s.find? k key) = some r)
      (ho : o ≠ .unchanged) : Turn key change s (s.put key r) (some (k, key)) (.done (.ok o))

end Upsert

namespace Program
variable {k : Kind} {key : Key} {change : Option (Resource k) → Option (Resource k)}

/-- Whatever others make of the store in between, each call of the program is a turn of the
upsert. -/
def Upserts (key : Key) (change : Option (Resource k) → Option (Resource k)) :
    Program WriteOutcome → Store → Prop
  | .done _, _ => True
  | .call c next, s => ∀ s', s.Leads s' →
      Upsert.Turn key change s' (s'.perform c).2 (c.wrote? (s'.perform c).1)
          (next (s'.perform c).1) ∧
        (next (s'.perform c).1).Upserts key change (s'.perform c).2

end Program

namespace Upsert
variable {k : Kind} {key : Key} {change : Option (Resource k) → Option (Resource k)} {s : Store}

def attempts (key : Key) (change : Option (Resource k) → Option (Resource k)) (n : Nat) :
    Program WriteOutcome :=
  rounds key (fun (_ : Unit) r => (.ok (change r), ())) n () >>= fun x => .ofExcept x.1

def afterLoss (key : Key) (change : Option (Resource k) → Option (Resource k)) (n : Nat)
    (current : Option (Resource k)) (e : Error) : Program WriteOutcome :=
  if lost current e then attempts key change n else .fail e

theorem attempts_succ (key : Key) (change : Option (Resource k) → Option (Resource k)) (n : Nat) :
    attempts key change (n + 1) = .call (.get k key) fun
      | .error e => .fail e
      | .ok current =>
        match change current with
        | none => pure .unchanged
        | some r => (write current r).attempt >>= fun
          | .ok o => pure o
          | .error e => afterLoss key change n current e := by
  rw [attempts, rounds_succ]
  refine congrArg (Program.call _) (funext fun a => ?_)
  rcases a with e | current
  · rfl
  · show decided key change n current >>= _ = _
    simp only [decided]
    cases change current with
    | none => rfl
    | some r =>
      rw [Program.bind_assoc]
      refine congrArg ((write current r).attempt >>= ·) (funext fun a => ?_)
      rcases a with e | o
      · simp only [afterLoss]
        split <;> rfl
      · rfl

theorem attempts_ne (n : Nat) (o : WriteOutcome) : attempts key change n ≠ .done (.ok o) := by
  cases n with
  | zero => rintro ⟨⟩
  | succ n =>
    rw [attempts_succ]
    rintro ⟨⟩

theorem afterLoss_ne {n : Nat} {current : Option (Resource k)} {e : Error} (o : WriteOutcome) :
    afterLoss key change n current e ≠ .done (.ok o) := by
  unfold afterLoss
  split
  · exact attempts_ne n o
  · rintro ⟨⟩

/-- A write goes through on what was read, or on nothing as it was read. -/
theorem upserts_write (hs : s.Sound) (hk : Fits key change) {n : Nat}
    (ih : ∀ s' : Store, s'.Sound → (attempts key change n).Upserts key change s') {r : Resource k}
    (hr : change (s.find? k key) = some r) :
    ((write (s.find? k key) r).attempt >>= fun
      | .ok o => pure o
      | .error e => afterLoss key change n (s.find? k key) e).Upserts key change s := by
  obtain ⟨rfl, -⟩ := hk.find? hs.filed hr
  have hloss {current : Option (Resource k)} {e : Error} {s' : Store} (hs' : s'.Sound) :
      (afterLoss r.key change n current e).Upserts r.key change s' := by
    unfold afterLoss
    split
    · exact ih s' hs'
    · trivial
  cases hc : s.find? k r.key with
  | none =>
    show (Program.call (.create k r) _).Upserts _ _ _
    intro s' hl
    rcases s'.perform_create_cases r with ⟨e, l, he⟩ | ⟨hnone, he⟩ <;> rw [he]
    · refine ⟨.on (fun _ _ => find?_setFaults ..) fun o => afterLoss_ne o, hloss ?_⟩
      exact (hl.sound hs).next (.faults s' l)
    · exact ⟨.wrote (by rw [hnone, ← hc, hr]) (by simp), trivial⟩
  | some current =>
    let r' := r.withVersion current.metadata.resourceVersion
    show (Program.call (.update k r') _).Upserts _ _ _
    intro s' hl
    rcases s'.perform_update_cases r' with ⟨e, l, he⟩ | ⟨⟨found, hfound, hv⟩, he⟩ <;> rw [he]
    · refine ⟨.on (fun _ _ => find?_setFaults ..) fun o => afterLoss_ne o, hloss ?_⟩
      exact (hl.sound hs).next (.faults s' l)
    · -- The version that was sent is still the stored one, so nobody wrote in between.
      obtain ⟨v, -, hv'⟩ := hs.stamped hc
      have hsent : r'.metadata.resourceVersion = current.metadata.resourceVersion := rfl
      have hsame : found = current :=
        hl.eq_of_version_eq hs hc hfound ((hv (by rw [hsent, hv']; rfl)).trans hsent)
      have hfound : s'.find? k r.key = some current := hsame ▸ hfound
      refine ⟨?_, trivial⟩
      show Turn r.key change s' (s'.put r.key r) _ (.done (.ok .updated))
      exact .wrote (by rw [hfound, ← hc, hr]) (by simp)

theorem upserts_attempts (hs : s.Sound) (hk : Fits key change) (n : Nat) :
    (attempts key change n).Upserts key change s := by
  induction n generalizing s with
  | zero => trivial
  | succ n ih =>
    rw [attempts_succ]
    intro s' hl
    have hs' := hl.sound hs
    rcases s'.perform_eq (.get k key) with he | ⟨p, l, he⟩ <;> rw [he]
    · cases hr : change (s'.find? k key) with
      | none =>
        simp only [answer, hr]
        exact ⟨.idle hr, trivial⟩
      | some r =>
        simp only [answer, hr]
        refine ⟨.on (fun _ _ => rfl) ?_, upserts_write hs' hk (fun s h => ih h) hr⟩
        cases s'.find? k key <;> rintro o ⟨⟩
    · exact ⟨.on (fun _ _ => find?_setFaults ..) fun o => by rintro ⟨⟩, trivial⟩

end Upsert

theorem upsert_ne_done {k : Kind} {key : Key} {change : Option (Resource k) → Option (Resource k)}
    (n : Nat) (r : Except Error WriteOutcome) : upsert key n change ≠ .done r := by
  obtain ⟨m, hm⟩ : ∃ m, max n 1 = m + 1 := ⟨max n 1 - 1, by omega⟩
  have hcall : upsert key n change = Upsert.attempts key change (m + 1) := by rw [← hm]; rfl
  rw [hcall, Upsert.attempts_succ]
  rintro ⟨⟩

theorem upserts_upsert {k : Kind} {key : Key} {change : Option (Resource k) → Option (Resource k)}
    {s : Store} (hs : s.Sound) (hk : Upsert.Fits key change) (n : Nat) :
    (upsert key n change).Upserts key change s :=
  Upsert.upserts_attempts hs hk (max n 1)

end TenantOperator
