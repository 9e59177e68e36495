import Mathlib.Data.List.Induction
import TenantOperator.Proofs.Interleaving.Runs

/-! Which run wrote what, in the order in which the writes went through. -/
namespace TenantOperator
open Program Store

def Call.wrote? : (c : Call) → Except Error c.Answer → Option (Kind × Key)
  | .create k r, .ok _ => some (k, r.key)
  | .update k r, .ok _ => some (k, r.key)
  | _, _ => none

theorem Call.wrote?_of_reads {c : Call} (h : c.Reads) (a : Except Error c.Answer) :
    c.wrote? a = none := by
  cases c with
  | create k r => exact absurd (Call.writes_create.2 ⟨rfl, rfl⟩) (h k r.key)
  | update k r => exact absurd (Call.writes_update.2 ⟨rfl, rfl⟩) (h k r.key)
  | get k key => rfl
  | list k ns labels => rfl
  | delete k key => rfl

namespace Pool
variable {ι α : Type} {P : Pool ι α} {i : ι}

def written (P : Pool ι α) : Event ι → List (ι × Kind × Key)
  | .run i =>
    match P.runs i with
    | .done _ => []
    | .call c _ => ((c.wrote? (P.store.perform c).1).map (i, ·)).toList
  | .call _ => []

theorem written_of_done {r : Except Error α} (h : P.runs i = .done r) :
    P.written (.run i) = [] := by
  simp only [written, h]

theorem written_of_call {c : Call} {next : Except Error c.Answer → Program α}
    (h : P.runs i = .call c next) :
    P.written (.run i) = ((c.wrote? (P.store.perform c).1).map (i, ·)).toList := by
  simp only [written, h]

theorem eq_of_mem_written {e : Event ι} {slot : Kind × Key} (h : (i, slot) ∈ P.written e) :
    e = .run i := by
  cases e with
  | call c => simp [written] at h
  | run j =>
    cases hj : P.runs j with
    | done r => simp [written_of_done hj] at h
    | call c next =>
      rw [written_of_call hj] at h
      simp at h
      rw [h.2]

variable [DecidableEq ι]

def log (P : Pool ι α) : List (Event ι) → List (ι × Kind × Key)
  | [] => []
  | e :: es => P.written e ++ (P.step e).log es

theorem log_append (P : Pool ι α) (es es' : List (Event ι)) :
    P.log (es ++ es') = P.log es ++ (P.exec es).log es' := by
  induction es generalizing P with
  | nil => rfl
  | cons e es ih => simp only [List.cons_append, log, ih, List.append_assoc]; rfl

theorem log_concat (P : Pool ι α) (es : List (Event ι)) (e : Event ι) :
    P.log (es ++ [e]) = P.log es ++ (P.exec es).written e := by
  rw [log_append, log, log, List.append_nil]

theorem runs_exec_of_done {r : Except Error α} (h : P.runs i = .done r) (es : List (Event ι)) :
    (P.exec es).runs i = .done r := by
  induction es generalizing P with
  | nil => exact h
  | cons e es ih =>
    refine ih ?_
    rcases runs_step_cases P e i with hi | ⟨c, next, -, hc, -⟩
    · rw [hi, h]
    · rw [h] at hc
      cases hc

/-- A run that was not over before has had its last turn. -/
theorem exists_last_turn (h : ∀ r, P.runs i ≠ .done r) {es : List (Event ι)}
    {r : Except Error α} (hr : (P.exec es).runs i = .done r) :
    ∃ before after c next, es = before ++ .run i :: after ∧
      (P.exec before).runs i = .call c next ∧
      (P.exec (before ++ [.run i])).runs i = .done r := by
  induction es using List.reverseRecOn with
  | nil => exact absurd hr (h r)
  | append_singleton es e ih =>
    rcases runs_step_cases (P.exec es) e i with hi | ⟨c, next, rfl, hc, -⟩
    · rw [exec_concat, hi] at hr
      obtain ⟨before, after, c, next, rfl, hc, hend⟩ := ih hr
      exact ⟨before, after ++ [e], c, next, by simp, hc, hend⟩
    · exact ⟨es, [], c, next, rfl, hc, hr⟩

end Pool
end TenantOperator
