import TenantOperator.Proofs.Store.Calm

/-! Faults that are due. A call is struck if a fault of its verb and kind is due, and otherwise it
is answered. Struck, it fails with the error of such a fault, and no object changes. -/
namespace TenantOperator
open Program

namespace Store
variable {s s' : Store} {k : Kind} {v : Verb} {e : Error}

/-- A fault waits for the calls of a verb on a kind. -/
def FaultDue (s : Store) (k : Kind) (v : Verb) : Prop := ∃ f ∈ s.faults, f.kind = k ∧ f.verb = v

instance (s : Store) (k : Kind) (v : Verb) : Decidable (s.FaultDue k v) :=
  inferInstanceAs (Decidable (∃ f ∈ s.faults, f.kind = k ∧ f.verb = v))

/-- Such a fault struck: a call failed with its error and took a fault out. -/
structure Struck (s : Store) (k : Kind) (v : Verb) (e : Error) (s' : Store) : Prop where
  fault : ∃ f ∈ s.faults, f.kind = k ∧ f.verb = v ∧ f.error = e
  rest : ∃ l, s' = { s with faults := l }

theorem Calm.not_faultDue (hs : s.Calm) (k : Kind) (v : Verb) : ¬s.FaultDue k v := by
  simp [FaultDue, hs.faults]

theorem Struck.faultDue (h : s.Struck k v e s') : s.FaultDue k v := by
  obtain ⟨f, hf, hk, hv, -⟩ := h.fault
  exact ⟨f, hf, hk, hv⟩

theorem Struck.find? (h : s.Struck k v e s') (l : Kind) (key : Key) :
    s'.find? l key = s.find? l key := by
  obtain ⟨fs, rfl⟩ := h.rest
  exact s.find?_setFaults ..

theorem Struck.isAlreadyExists (h : s.Struck k v e s') : e.isAlreadyExists = false := by
  obtain ⟨f, -, -, -, rfl⟩ := h.fault
  exact isAlreadyExists_fault f

theorem faults_ensured (s : Store) (r : Resource k) : (s.ensured r).faults = s.faults := by
  unfold ensured
  split
  · rfl
  · exact faults_put ..

/-- A call is struck, or no fault for it is due and it is answered. -/
theorem perform_cases (s : Store) (c : Call) :
    (∃ e s', s.Struck c.kind c.verb e s' ∧ s.perform c = (.error e, s')) ∨
    ¬s.FaultDue c.kind c.verb ∧ s.perform c = s.answer c := by
  unfold perform takeFault
  cases h : s.faults.find? fun p => p.kind = c.kind && p.verb = c.verb with
  | none =>
    right
    refine ⟨?_, rfl⟩
    rintro ⟨f, hf, hk, hv⟩
    exact List.find?_eq_none.1 h f hf (by simp [hk, hv])
  | some f =>
    left
    have hf : f.kind = c.kind ∧ f.verb = c.verb := by simpa using List.find?_some h
    exact ⟨_, _, ⟨⟨f, List.mem_of_find?_eq_some h, hf.1, hf.2, rfl⟩, _, rfl⟩, rfl⟩

end Store

open Store
variable {s : Store} {k : Kind}

variable {α : Type}

theorem run_perform_bind_cases (s : Store) (c : Call) (f : c.Answer → Program α) :
    (∃ e s', s.Struck c.kind c.verb e s' ∧ (perform c >>= f).run s = (.error e, s')) ∨
    ¬s.FaultDue c.kind c.verb ∧ (perform c >>= f).run s =
      match s.answer c with
      | (.ok a, x) => (f a).run x
      | (.error e, x) => (.error e, x) := by
  rw [run_bind, run_perform]
  rcases s.perform_cases c with ⟨e, s', hs, h⟩ | ⟨hd, h⟩ <;> rw [h]
  · exact Or.inl ⟨e, s', hs, rfl⟩
  · refine Or.inr ⟨hd, ?_⟩
    rcases s.answer c with ⟨_ | _, x⟩ <;> rfl

theorem run_get_bind_cases (s : Store) (k : Kind) (key : Key)
    (f : Option (Resource k) → Program α) :
    (∃ e s', s.Struck k .get e s' ∧ (Program.get k key >>= f).run s = (.error e, s')) ∨
    ¬s.FaultDue k .get ∧ (Program.get k key >>= f).run s = (f (s.find? k key)).run s :=
  run_perform_bind_cases s (.get k key) f

theorem run_list_bind_cases (s : Store) (k : Kind) (ns : Option String) (labels : Labels)
    (f : List (Resource k) → Program α) :
    (∃ e s', s.Struck k .list e s' ∧ (Program.list k ns labels >>= f).run s = (.error e, s')) ∨
    ¬s.FaultDue k .list ∧
      (Program.list k ns labels >>= f).run s = (f (s.select k ns labels)).run s :=
  run_perform_bind_cases s (.list k ns labels) f

theorem run_ensureCreated_cases {r : Resource k} {n : String} (hn : r.metadata.name = some n) :
    (∃ e s', s.Struck k .create e s' ∧ (ensureCreated r).run s = (.error e, s')) ∨
    ¬s.FaultDue k .create ∧
      (ensureCreated r).run s = (.ok (s.find? k r.key).isNone, s.ensured r) := by
  rcases s.perform_cases (.create k r) with ⟨e, s', hs, h⟩ | ⟨hd, h⟩
  · left
    refine ⟨e, s', hs, ?_⟩
    have hc : (Program.create r).run s = s.perform (.create k r) := rfl
    rw [ensureCreated, run_bind, run_attempt, hc, h]
    simp only [hs.isAlreadyExists]
    rfl
  · exact Or.inr ⟨hd, run_ensureCreated_of_answered hn h⟩

end TenantOperator
