import Mathlib.Logic.Function.Basic
import TenantOperator.Proofs.Store.Footprint

/-! Programs that share a store. Each step is one call: of one of the programs, which then waits for
its next turn, or of another writer. -/
namespace TenantOperator

/-- What happens next: a run takes its next call, or somebody else makes a call that no fault
strikes. -/
inductive Event (ι : Type) where
  | run (i : ι)
  | call (c : Call)

structure Pool (ι α : Type) where
  store : Store
  runs : ι → Program α

namespace Pool
variable {ι α : Type} [DecidableEq ι]

/-- A run that is over has no turn any more. -/
def step (P : Pool ι α) : Event ι → Pool ι α
  | .run i =>
    match P.runs i with
    | .done _ => P
    | .call c next =>
      ⟨(P.store.perform c).2, Function.update P.runs i (next (P.store.perform c).1)⟩
  | .call c => ⟨(P.store.answer c).2, P.runs⟩

def exec (P : Pool ι α) (es : List (Event ι)) : Pool ι α := es.foldl step P

variable {P : Pool ι α} {i : ι}

theorem exec_append (es es' : List (Event ι)) : P.exec (es ++ es') = (P.exec es).exec es' :=
  List.foldl_append ..

theorem exec_concat (es : List (Event ι)) (e : Event ι) :
    P.exec (es ++ [e]) = (P.exec es).step e := by
  rw [exec_append]
  rfl

theorem step_run_of_done {r : Except Error α} (h : P.runs i = .done r) :
    P.step (.run i) = P := by
  simp only [step, h]

theorem step_run_of_call {c : Call} {next : Except Error c.Answer → Program α}
    (h : P.runs i = .call c next) :
    P.step (.run i) =
      ⟨(P.store.perform c).2, Function.update P.runs i (next (P.store.perform c).1)⟩ := by
  simp only [step, h]

theorem store_step_run {c : Call} {next : Except Error c.Answer → Program α}
    (h : P.runs i = .call c next) : (P.step (.run i)).store = (P.store.perform c).2 := by
  rw [step_run_of_call h]

theorem runs_step_run_self {c : Call} {next : Except Error c.Answer → Program α}
    (h : P.runs i = .call c next) : (P.step (.run i)).runs i = next (P.store.perform c).1 := by
  rw [step_run_of_call h]
  exact Function.update_self ..

theorem runs_step_run_of_ne {j : ι} (h : j ≠ i) : (P.step (.run i)).runs j = P.runs j := by
  cases hi : P.runs i with
  | done r => rw [step_run_of_done hi]
  | call c next =>
    rw [step_run_of_call hi]
    exact Function.update_of_ne h ..

theorem runs_step_of_ne {e : Event ι} (he : e ≠ .run i) : (P.step e).runs i = P.runs i := by
  cases e with
  | call c => rfl
  | run j =>
    refine runs_step_run_of_ne ?_
    rintro rfl
    exact he rfl

theorem runs_step_cases (P : Pool ι α) (e : Event ι) (i : ι) :
    (P.step e).runs i = P.runs i ∨ ∃ c next, e = .run i ∧ P.runs i = .call c next ∧
      (P.step e).runs i = next (P.store.perform c).1 := by
  by_cases he : e = .run i
  · subst he
    cases hi : P.runs i with
    | done r =>
      rw [step_run_of_done hi, hi]
      exact Or.inl rfl
    | call c next => exact Or.inr ⟨c, next, rfl, rfl, runs_step_run_self hi⟩
  · exact Or.inl (runs_step_of_ne he)

theorem filed_step (hs : P.store.Filed) (e : Event ι) : (P.step e).store.Filed := by
  cases e with
  | call c => exact hs.answer c
  | run i =>
    cases hi : P.runs i with
    | done r => rwa [step_run_of_done hi]
    | call c next =>
      rw [store_step_run hi]
      exact hs.perform c

theorem filed_exec (hs : P.store.Filed) (es : List (Event ι)) : (P.exec es).store.Filed := by
  induction es generalizing P with
  | nil => exact hs
  | cons e es ih => exact ih (filed_step hs e)

theorem every_exec {Q : Call → Prop} (hs : P.store.Filed) (h : (P.runs i).Every Q)
    (es : List (Event ι)) : ((P.exec es).runs i).Every Q := by
  induction es generalizing P with
  | nil => exact h
  | cons e es ih =>
    refine ih (filed_step hs e) ?_
    rcases runs_step_cases P e i with hi | ⟨c, next, -, hc, hi⟩ <;> rw [hi]
    · exact h
    · rw [hc] at h
      exact h.2 _ (hs.admits c)

/-- A run that has all turns to itself does what it does on a store of its own. -/
theorem exec_replicate_run (P : Pool ι α) (i : ι) :
    ∃ n, P.exec (List.replicate n (.run i)) =
      ⟨((P.runs i).run P.store).2,
        Function.update P.runs i (.done ((P.runs i).run P.store).1)⟩ := by
  obtain ⟨p, hp⟩ : ∃ p, P.runs i = p := ⟨_, rfl⟩
  induction p generalizing P with
  | done r =>
    refine ⟨0, ?_⟩
    have hu : Function.update P.runs i (.done r) = P.runs := by
      rw [← hp, Function.update_eq_self]
    rw [hp]
    simp only [Program.run, hu]
    rfl
  | call c next ih =>
    obtain ⟨n, hn⟩ := ih _ (P.step (.run i)) (runs_step_run_self hp)
    refine ⟨n + 1, ?_⟩
    rw [List.replicate_succ, exec, List.foldl_cons, ← exec, hn, step_run_of_call hp, hp]
    simp only [Function.update_self, Function.update_idem]
    rfl

theorem runs_exec_of_notMem {es : List (Event ι)} (h : .run i ∉ es) :
    (P.exec es).runs i = P.runs i := by
  induction es generalizing P with
  | nil => rfl
  | cons e es ih =>
    have hne : .run i ≠ e := List.ne_of_not_mem_cons h
    rw [exec, List.foldl_cons, ← exec, ih (List.not_mem_of_not_mem_cons h),
      runs_step_of_ne hne.symm]

def turns (i : ι) (es : List (Event ι)) : Nat :=
  es.countP fun
    | .run j => decide (j = i)
    | .call _ => false

theorem turns_append (i : ι) (es es' : List (Event ι)) :
    turns i (es ++ es') = turns i es + turns i es' :=
  List.countP_append

theorem turns_self (i : ι) : turns i [.run i] = 1 := by simp [turns]

theorem turns_of_ne {e : Event ι} (he : e ≠ .run i) : turns i [e] = 0 := by
  cases e with
  | call c => rfl
  | run j =>
    have hne : j ≠ i := by
      rintro rfl
      exact he rfl
    simp [turns, hne]

theorem turns_eq_zero {es : List (Event ι)} (h : turns i es = 0) : .run i ∉ es := by
  intro hmem
  simpa using List.countP_eq_zero.1 h _ hmem

theorem admits_of_turn (hs : P.store.Filed) {c : Call} {next : Except Error c.Answer → Program α}
    (h : P.runs i = .call c next) {es : List (Event ι)} (hes : turns i es = 1) :
    ∃ a, c.Admits a ∧ (P.exec es).runs i = next a := by
  induction es generalizing P with
  | nil => cases hes
  | cons e es ih =>
    have hcount : turns i [e] + turns i es = 1 := by rw [← turns_append]; exact hes
    by_cases he : e = .run i
    · subst he
      rw [turns_self] at hcount
      have hrest : .run i ∉ es := turns_eq_zero (by omega)
      refine ⟨_, hs.admits c, ?_⟩
      rw [exec, List.foldl_cons, ← exec, runs_exec_of_notMem hrest, runs_step_run_self h]
    · rw [turns_of_ne he] at hcount
      exact ih (filed_step hs e) ((runs_step_of_ne he).trans h) (by omega)

end Pool
end TenantOperator
