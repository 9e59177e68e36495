import Mathlib.Data.List.Induction
import TenantOperator.Proofs.Interleaving.Pool
import TenantOperator.Proofs.Interleaving.Waits

/-! Pools whose runs suit each other. When each run guarantees what the others rely on, and so do
the calls of other writers, then every run that began stays on its course in every order of turns.
-/
namespace TenantOperator
namespace Pool
variable {ι α : Type} {P : Pool ι α}

theorem before_unique {e : Event ι} {b b' a a' : List (Event ι)} (hb : e ∉ b) (hb' : e ∉ b')
    (h : b ++ e :: a = b' ++ e :: a') : b = b' := by
  rcases List.append_eq_append_iff.1 h with ⟨c, rfl, hc⟩ | ⟨c, rfl, hc⟩
  all_goals
    cases c with
    | nil => simp
    | cons x c =>
      obtain ⟨rfl, -⟩ := List.cons.inj hc
      simp at hb hb'

/-- Since it last had its turn, the store changed as the run relies on. -/
def Waiting (R G : Store → Store → Prop) (Q : α → Store → Prop) (P : Pool ι α) (i : ι) : Prop :=
  ∃ s, s.Leads P.store ∧ R s P.store ∧ (P.runs i).Waits R G Q s

section own
variable {R G : Store → Store → Prop} {Q : α → Store → Prop} {i : ι}

theorem Waiting.done_or_acts (h : Waiting R G Q P i) :
    (∃ r, P.runs i = .done r) ∨ (P.runs i).Acts R G Q P.store := by
  obtain ⟨s, hl, hr, hw⟩ := h
  cases hi : P.runs i with
  | done r => exact Or.inl ⟨r, rfl⟩
  | call c next =>
    rw [hi] at hw
    exact Or.inr (hw P.store hl hr)

theorem Waiting.result (h : Waiting R G Q P i) {a : α} (hi : P.runs i = .done (.ok a)) :
    ∃ s, s.Leads P.store ∧ R s P.store ∧ Q a s := by
  obtain ⟨s, hl, hr, hw⟩ := h
  rw [hi] at hw
  exact ⟨s, hl, hr, hw⟩

theorem waiting_of_done (hR : Rely R) {x : Except Error α} (h : P.runs i = .done x)
    (hQ : ∀ a, x = .ok a → Q a P.store) : Waiting R G Q P i := by
  refine ⟨P.store, .refl _, hR.refl _, ?_⟩
  rw [h]
  cases x with
  | ok a => exact hQ a rfl
  | error e => trivial

theorem Waiting.relying {R' G' : Store → Store → Prop} {Q' : α → Store → Prop} (hR : Rely R)
    (h : Waiting R G Q P i) (hR' : Rely R') (hRR : ∀ s s', R' s s' → R s s')
    (hGG : ∀ s s', G s s' → G' s s') (hQ' : ∀ a s, Q' a s) : Waiting R' G' Q' P i := by
  obtain ⟨s, hl, hr, hw⟩ := h
  have htrue := hw.mono (fun _ _ h => h) hGG fun a s _ => hQ' a s
  exact ⟨P.store, .refl _, hR'.refl _,
    (htrue.later hR hl hr fun a _ => hQ' a _).mono hRR (fun _ _ h => h) fun _ _ h => h⟩

variable [DecidableEq ι]

theorem leads_step (P : Pool ι α) (e : Event ι) : P.store.Leads (P.step e).store := by
  cases e with
  | call c => exact (Store.Leads.refl P.store).answer c
  | run i =>
    cases hi : P.runs i with
    | done r =>
      rw [step_run_of_done hi]
      exact .refl P.store
    | call c next =>
      rw [store_step_run hi]
      exact (Store.Leads.refl P.store).perform c

theorem leads_exec (P : Pool ι α) (es : List (Event ι)) : P.store.Leads (P.exec es).store := by
  induction es generalizing P with
  | nil => exact .refl P.store
  | cons e es ih => exact (leads_step P e).trans (ih (P.step e))

theorem waiting_of_acts (hR : Rely R) (h : (P.runs i).Acts R G Q P.store) :
    Waiting R G Q (P.step (.run i)) i := by
  cases hi : P.runs i with
  | done r =>
    rw [step_run_of_done hi]
    refine ⟨P.store, .refl _, hR.refl _, ?_⟩
    rw [hi] at h ⊢
    cases r <;> exact h
  | call c next =>
    rw [hi] at h
    refine ⟨(P.step (.run i)).store, .refl _, hR.refl _, ?_⟩
    rw [store_step_run hi, runs_step_run_self hi]
    exact h.2

/-- The result of a run fits the store right after its last turn. -/
theorem result_of_acts (h : (P.runs i).Acts R G Q P.store) (hi : ∀ r, P.runs i ≠ .done r) {a : α}
    (ha : (P.step (.run i)).runs i = .done (.ok a)) : Q a (P.step (.run i)).store := by
  cases hc : P.runs i with
  | done r => exact absurd hc (hi r)
  | call c next =>
    rw [hc] at h
    rw [runs_step_run_self hc] at ha
    have hw := h.2
    rw [ha] at hw
    rwa [store_step_run hc]

theorem guarantee_of_acts {T : Store → Store → Prop} (hT : Rely T) (hG : ∀ s s', G s s' → T s s')
    (h : (P.runs i).Acts R G Q P.store) : T P.store (P.step (.run i)).store := by
  cases hi : P.runs i with
  | done r =>
    rw [step_run_of_done hi]
    exact hT.refl _
  | call c next =>
    rw [hi] at h
    rw [store_step_run hi]
    exact hG _ _ h.1

theorem Waiting.step_self (hR : Rely R) (h : Waiting R G Q P i) :
    Waiting R G Q (P.step (.run i)) i := by
  rcases h.done_or_acts with ⟨r, hr⟩ | ha
  · rwa [step_run_of_done hr]
  · exact waiting_of_acts hR ha

theorem Waiting.guarantee {T : Store → Store → Prop} (hT : Rely T) (hG : ∀ s s', G s s' → T s s')
    (h : Waiting R G Q P i) : T P.store (P.step (.run i)).store := by
  rcases h.done_or_acts with ⟨r, hr⟩ | ha
  · rw [step_run_of_done hr]
    exact hT.refl _
  · exact guarantee_of_acts hT hG ha

theorem Waiting.step_other (hR : Rely R) (h : Waiting R G Q P i) {e : Event ι} (he : e ≠ .run i)
    (hstep : R P.store (P.step e).store) : Waiting R G Q (P.step e) i := by
  obtain ⟨s, hl, hr, hw⟩ := h
  refine ⟨s, hl.trans (leads_step P e), hR.trans hr hstep, ?_⟩
  rwa [runs_step_of_ne he]

end own

theorem exec_of_done [DecidableEq ι] {T : Store → Store → Prop} (hT : Rely T)
    (h : ∀ i, ∃ r, P.runs i = .done r) {es : List (Event ι)}
    (hcall : ∀ c, .call c ∈ es → ∀ s : Store, T s (s.answer c).2) :
    T P.store (P.exec es).store := by
  induction es generalizing P with
  | nil => exact hT.refl _
  | cons e es ih =>
    have hrest : ∀ c, .call c ∈ es → ∀ s : Store, T s (s.answer c).2 := fun c hc =>
      hcall c (List.mem_cons_of_mem e hc)
    cases e with
    | call c =>
      exact hT.trans (hcall c List.mem_cons_self P.store) (ih (P := P.step (.call c)) h hrest)
    | run i =>
      obtain ⟨r, hr⟩ := h i
      have hstep : P.step (.run i) = P := step_run_of_done hr
      rw [exec, List.foldl_cons, ← exec, hstep]
      exact ih h hrest

section all
variable [DecidableEq ι] {R₀ : Store → Store → Prop} {R G : ι → Store → Store → Prop}
  {Q : ι → α → Store → Prop}

/-- Runs that wait already, and runs that act well when they begin, are all on their course in the
end; what everybody keeps to has changed the store. -/
theorem waiting_exec (es : List (Event ι)) (hR : ∀ i, Rely (R i)) (hR₀ : Rely R₀)
    (hG : ∀ i s s', G i s s' → R₀ s s' ∧ ∀ j, j ≠ i → R j s s')
    (hcall : ∀ c, .call c ∈ es → ∀ s : Store, R₀ s (s.answer c).2 ∧ ∀ j, R j s (s.answer c).2)
    (hbegin : ∀ i before after, es = before ++ .run i :: after → .run i ∉ before →
      R₀ P.store (P.exec before).store → Waiting (R i) (G i) (Q i) P i ∨
        (P.runs i).Acts (R i) (G i) (Q i) (P.exec before).store) :
    R₀ P.store (P.exec es).store ∧ ∀ i, Waiting (R i) (G i) (Q i) P i ∨ .run i ∈ es →
      Waiting (R i) (G i) (Q i) (P.exec es) i := by
  induction es using List.reverseRecOn with
  | nil => exact ⟨hR₀.refl _, fun i h => h.resolve_right (by simp)⟩
  | append_singleton es e ih =>
    obtain ⟨hobs, hwait⟩ := ih (fun c hc => hcall c (by simp [hc]))
      fun i before after he => hbegin i before (after ++ [e]) (by simp [he])
    rw [exec_concat]
    cases e with
    | call c =>
      obtain ⟨h₀, hc⟩ := hcall c (by simp) (P.exec es).store
      refine ⟨hR₀.trans hobs h₀, fun i hi => ?_⟩
      exact (hwait i (by simpa using hi)).step_other (hR i) (by simp) (hc i)
    | run j =>
      -- The run whose turn it is waited already, or it begins.
      have hturn : Waiting (R j) (G j) (Q j) (P.exec es) j ∨
          ((P.exec es).runs j).Acts (R j) (G j) (Q j) (P.exec es).store := by
        by_cases hj : .run j ∈ es
        · exact Or.inl (hwait j (Or.inr hj))
        · rcases hbegin j es [] rfl hj hobs with hw | ha
          · exact Or.inl (hwait j (Or.inl hw))
          · rw [← runs_exec_of_notMem (P := P) hj] at ha
            exact Or.inr ha
      have hkeep {T : Store → Store → Prop} (hT : Rely T) (hGT : ∀ s s', G j s s' → T s s') :
          T (P.exec es).store ((P.exec es).step (.run j)).store :=
        hturn.elim (·.guarantee hT hGT) (guarantee_of_acts hT hGT)
      refine ⟨hR₀.trans hobs (hkeep hR₀ fun s s' h => (hG j s s' h).1), fun i hi => ?_⟩
      by_cases hij : i = j
      · subst hij
        exact hturn.elim (·.step_self (hR i)) (waiting_of_acts (hR i))
      · have hmem : Waiting (R i) (G i) (Q i) P i ∨ .run i ∈ es := by simpa [hij] using hi
        refine (hwait i hmem).step_other (hR i) ?_
          (hkeep (hR i) fun s s' h => (hG j s s' h).2 i hij)
        rintro ⟨⟩
        exact hij rfl

theorem waiting_exec_same (es : List (Event ι)) (hR₀ : Rely R₀)
    (hG : ∀ i s s', G i s s' → R₀ s s')
    (hcall : ∀ c, .call c ∈ es → ∀ s : Store, R₀ s (s.answer c).2)
    (hbegin : ∀ i before after, es = before ++ .run i :: after → .run i ∉ before →
      R₀ P.store (P.exec before).store → Waiting R₀ (G i) (Q i) P i ∨
        (P.runs i).Acts R₀ (G i) (Q i) (P.exec before).store) :
    R₀ P.store (P.exec es).store ∧ ∀ i, Waiting R₀ (G i) (Q i) P i ∨ .run i ∈ es →
      Waiting R₀ (G i) (Q i) (P.exec es) i :=
  waiting_exec (R := fun _ => R₀) es (fun _ => hR₀) hR₀
    (fun i s s' h => ⟨hG i s s' h, fun _ _ => hG i s s' h⟩)
    (fun c hc s => ⟨hcall c hc s, fun _ => hcall c hc s⟩) hbegin

end all

end Pool
end TenantOperator
