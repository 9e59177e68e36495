import Mathlib.Data.Finset.Card
import TenantOperator.Schedule.Dispatch

/-! Locks of entities under any order of steps. All calls for an entity that have a share of a lock
have it of the same one, the one in the table, so their attempts never run side by side; and the
table has a lock only for an entity that some call still handles. -/
namespace TenantOperator

section lookup
variable {κ α : Type} [BEq κ] [LawfulBEq κ] {l : List (κ × α)} {k : κ} {a : α}

theorem mem_of_lookup (h : l.lookup k = some a) : (k, a) ∈ l := by
  obtain ⟨before, after, rfl, -⟩ := List.lookup_eq_some_iff.1 h
  simp

theorem fst_ne_of_lookup (h : l.lookup k = none) {e : κ × α} (he : e ∈ l) : e.1 ≠ k := by
  have hne := List.lookup_eq_none_iff.1 h e he
  rintro rfl
  simp at hne

end lookup

namespace Locks
namespace State
variable {s s' : State} {call lock : Nat} {c : Caller} {p : Phase} {r : ReconcileRequest}

/-- Calls, locks and entities are told apart, and a share is one of the lock in the table. -/
structure Keyed (s : State) : Prop where
  numbered : (s.callers.map (·.1)).Nodup
  begun : ∀ e ∈ s.callers, e.1 < s.callsMade
  /-- One lock for an entity, and one entity for a lock. -/
  entities : (s.table.map (·.1)).Nodup
  locks : (s.table.map (·.2)).Nodup
  made : ∀ e ∈ s.table, e.2 < s.locksMade
  shared : ∀ e ∈ s.callers, e.2.phase ≠ .dropped → (e.2.request, e.2.lock) ∈ s.table
  exclusive : ∀ e ∈ s.callers, ∀ e' ∈ s.callers, e.2.phase = .running → e'.2.phase = .running →
    e.2.lock = e'.2.lock → e.1 = e'.1

/-- What every step keeps: a lock stays in the table only for a call that has not returned. -/
structure Guarded (s : State) : Prop extends s.Keyed where
  needed : ∀ e ∈ s.table, ∃ x ∈ s.callers, x.2.request = e.1

theorem guarded_start : ({} : State).Guarded where
  numbered := List.nodup_nil
  begun := by simp
  entities := List.nodup_nil
  locks := List.nodup_nil
  made := by simp
  shared := by simp
  exclusive := by simp
  needed := by simp

namespace Keyed

theorem eq_of_fst_eq (h : s.Keyed) {e e' : Nat × Caller} (he : e ∈ s.callers)
    (he' : e' ∈ s.callers) (hn : e.1 = e'.1) : e = e' :=
  List.inj_on_of_nodup_map h.numbered he he' hn

theorem lock_eq (h : s.Keyed) {lock' : Nat} (hl : (r, lock) ∈ s.table)
    (hl' : (r, lock') ∈ s.table) : lock = lock' :=
  congrArg Prod.snd (List.inj_on_of_nodup_map h.entities hl hl' rfl)

theorem request_eq (h : s.Keyed) {r' : ReconcileRequest} (hl : (r, lock) ∈ s.table)
    (hl' : (r', lock) ∈ s.table) : r = r' :=
  congrArg Prod.fst (List.inj_on_of_nodup_map h.locks hl hl' rfl)

theorem addLock (h : s.Keyed) (hr : ∀ e ∈ s.table, e.1 ≠ r) :
    ({ s with table := (r, s.locksMade) :: s.table, locksMade := s.locksMade + 1 } : State).Keyed
    where
  numbered := h.numbered
  begun := h.begun
  entities := by
    simp only [List.map_cons, List.nodup_cons, List.mem_map]
    refine ⟨?_, h.entities⟩
    rintro ⟨e, he, hre⟩
    exact hr e he hre
  locks := by
    simp only [List.map_cons, List.nodup_cons, List.mem_map]
    refine ⟨?_, h.locks⟩
    rintro ⟨e, he, hle⟩
    have := h.made e he
    omega
  made e he := by
    rcases List.mem_cons.1 he with rfl | he
    · exact Nat.lt_succ_self _
    · exact Nat.lt_succ_of_lt (h.made e he)
  shared e he hp := List.mem_cons_of_mem _ (h.shared e he hp)
  exclusive := h.exclusive

theorem join (h : s.Keyed) (hl : (r, lock) ∈ s.table) :
    ({ s with
      callers := s.callers ++ [(s.callsMade, ⟨r, lock, .waiting⟩)]
      callsMade := s.callsMade + 1 } : State).Keyed where
  numbered := by
    rw [List.map_append, List.nodup_append]
    refine ⟨h.numbered, by simp, fun n hn m hm => ?_⟩
    obtain ⟨e, he, rfl⟩ := List.mem_map.1 hn
    have hm : m = s.callsMade := by simpa using hm
    have := h.begun e he
    omega
  begun e he := by
    rcases List.mem_append.1 he with he | he
    · exact Nat.lt_succ_of_lt (h.begun e he)
    · cases List.mem_singleton.1 he
      exact Nat.lt_succ_self _
  entities := h.entities
  locks := h.locks
  made := h.made
  shared e he hp := by
    rcases List.mem_append.1 he with he | he
    · exact h.shared e he hp
    · cases List.mem_singleton.1 he
      exact hl
  exclusive e he e' he' hp hp' hlock := by
    have old {x : Nat × Caller} (hx : x ∈ s.callers ++ [(s.callsMade, ⟨r, lock, .waiting⟩)])
        (hrun : x.2.phase = .running) : x ∈ s.callers := by
      rcases List.mem_append.1 hx with hx | hx
      · exact hx
      · cases List.mem_singleton.1 hx
        cases hrun
    exact h.exclusive e (old he hp) e' (old he' hp') hp hp' hlock

end Keyed

theorem Guarded.enter (h : s.Guarded) (r : ReconcileRequest) : (s.enter r).Guarded := by
  unfold State.enter
  split
  rename_i lock s' hs
  split at hs
  · rename_i found hl
    cases hs
    refine ⟨h.toKeyed.join (mem_of_lookup hl), fun e he => ?_⟩
    obtain ⟨x, hx, hr⟩ := h.needed e he
    exact ⟨x, List.mem_append_left _ hx, hr⟩
  · rename_i hl
    cases hs
    refine ⟨(h.toKeyed.addLock fun e => fst_ne_of_lookup hl).join List.mem_cons_self,
      fun e he => ?_⟩
    rcases List.mem_cons.1 he with rfl | he
    · exact ⟨_, List.mem_append_right _ (List.mem_singleton_self _), rfl⟩
    · obtain ⟨x, hx, hr⟩ := h.needed e he
      exact ⟨x, List.mem_append_left _ hx, hr⟩

theorem mem_setPhase {e : Nat × Caller} (he : e ∈ (s.setPhase call p).callers) :
    ∃ x ∈ s.callers, e.1 = x.1 ∧ e.2.request = x.2.request ∧ e.2.lock = x.2.lock ∧
      e.2.phase = if x.1 = call then p else x.2.phase := by
  obtain ⟨⟨i, c⟩, hx, rfl⟩ := List.mem_map.1 he
  refine ⟨(i, c), hx, ?_⟩
  by_cases hi : i = call <;> simp [hi]

theorem map_fst_setPhase : (s.setPhase call p).callers.map (·.1) = s.callers.map (·.1) := by
  rw [setPhase, List.map_map]
  refine List.map_congr_left fun e _ => ?_
  obtain ⟨i, c⟩ := e
  by_cases hi : i = call <;> simp [hi]

/-- No share is taken back, and an attempt begins only under a lock that nobody holds. -/
theorem Guarded.setPhase (h : s.Guarded) (hc : s.caller? call = some c) (hp : c.phase ≠ .dropped)
    (hr : p = .running → s.isHeld c.lock = false) : (s.setPhase call p).Guarded where
  numbered := by
    rw [map_fst_setPhase]
    exact h.numbered
  begun e he := by
    obtain ⟨x, hx, hi, -⟩ := mem_setPhase he
    rw [hi]
    exact h.begun x hx
  entities := h.entities
  locks := h.locks
  made := h.made
  shared e he hd := by
    obtain ⟨x, hx, -, hreq, hlock, hphase⟩ := mem_setPhase he
    rw [hreq, hlock]
    refine h.shared x hx ?_
    by_cases hi : x.1 = call
    · rwa [h.eq_of_fst_eq hx (mem_of_lookup hc) hi]
    · rwa [hphase, if_neg hi] at hd
  exclusive e he e' he' hrun hrun' hlock := by
    obtain ⟨x, hx, hi, -, hl, hphase⟩ := mem_setPhase he
    obtain ⟨x', hx', hi', -, hl', hphase'⟩ := mem_setPhase he'
    rw [hi, hi']
    rw [hphase] at hrun
    rw [hphase'] at hrun'
    rw [hl, hl'] at hlock
    -- A call that begins an attempt has found no other one under its lock.
    have alone {y y' : Nat × Caller} (hy : y ∈ s.callers) (hy' : y' ∈ s.callers)
        (hcall : y.1 = call) (hother : y'.1 ≠ call) (hp : p = .running)
        (hrun : y'.2.phase = .running) (heq : y.2.lock = y'.2.lock) : False := by
      have hheld : s.isHeld c.lock = true := by
        rw [← congrArg Caller.lock (congrArg Prod.snd (h.eq_of_fst_eq hy (mem_of_lookup hc) hcall))]
        exact List.any_eq_true.2 ⟨y', hy', by simp [heq, hrun]⟩
      rw [hr hp] at hheld
      cases hheld
    by_cases hcall : x.1 = call <;> by_cases hcall' : x'.1 = call
    · rw [hcall, hcall']
    · rw [if_pos hcall] at hrun
      rw [if_neg hcall'] at hrun'
      exact (alone hx hx' hcall hcall' hrun hrun' hlock).elim
    · rw [if_neg hcall] at hrun
      rw [if_pos hcall'] at hrun'
      exact (alone hx' hx hcall' hcall hrun' hrun hlock.symm).elim
    · rw [if_neg hcall] at hrun
      rw [if_neg hcall'] at hrun'
      exact h.exclusive x hx x' hx' hrun hrun' hlock
  needed e he := by
    obtain ⟨⟨i, x⟩, hx, hr⟩ := h.needed e he
    refine ⟨_, List.mem_map_of_mem hx, ?_⟩
    by_cases hi : i = call <;> simpa [hi] using hr

theorem Guarded.reap (h : s.Guarded) (hc : s.caller? call = some c) :
    (s.reap call c.request).Guarded := by
  let rest : State := { s with callers := s.callers.filter (·.1 ≠ call) }
  have hrest {e : Nat × Caller} (he : e ∈ rest.callers) : e ∈ s.callers := (List.mem_filter.1 he).1
  have hkeyed : rest.Keyed :=
    { numbered := h.numbered.sublist (List.filter_sublist.map _)
      begun := fun e he => h.begun e (hrest he)
      entities := h.entities
      locks := h.locks
      made := h.made
      shared := fun e he => h.shared e (hrest he)
      exclusive := fun e he e' he' => h.exclusive e (hrest he) e' (hrest he') }
  -- The call that returns was not the one that another entity's lock is there for.
  have hneeded : ∀ e ∈ s.table, e.1 ≠ c.request → ∃ x ∈ rest.callers, x.2.request = e.1 := by
    intro e he hne
    obtain ⟨x, hx, hr⟩ := h.needed e he
    refine ⟨x, List.mem_filter.2 ⟨hx, ?_⟩, hr⟩
    rw [decide_eq_true_eq]
    intro hi
    refine hne (hr.symm.trans ?_)
    rw [h.eq_of_fst_eq hx (mem_of_lookup hc) hi]
  unfold State.reap
  dsimp only
  split
  · rename_i lock hl
    have hl := mem_of_lookup hl
    split
    · rename_i hshared
      refine ⟨hkeyed, fun e he => ?_⟩
      by_cases hr : e.1 = c.request
      · obtain ⟨x, hx, hlock⟩ := List.any_eq_true.1 hshared
        simp only [Bool.and_eq_true, decide_eq_true_eq, bne_iff_ne] at hlock
        have hin := hkeyed.shared x hx hlock.2
        rw [hlock.1] at hin
        exact ⟨x, hx, by rw [hr, h.request_eq hin hl]⟩
      · exact hneeded e he hr
    · rename_i hshared
      have hleft {e : ReconcileRequest × Nat} :
          e ∈ s.table.filter (·.1 ≠ c.request) ↔ e ∈ s.table ∧ e.1 ≠ c.request := by
        simp [List.mem_filter]
      refine
        { numbered := hkeyed.numbered
          begun := hkeyed.begun
          entities := h.entities.sublist (List.filter_sublist.map _)
          locks := h.locks.sublist (List.filter_sublist.map _)
          made := fun e he => h.made e (hleft.1 he).1
          shared := fun e he hd => hleft.2 ⟨hkeyed.shared e he hd, fun hr => hshared ?_⟩
          exclusive := hkeyed.exclusive
          needed := fun e he => hneeded e (hleft.1 he).1 (hleft.1 he).2 }
      have hin := hkeyed.shared e he hd
      rw [show e.2.request = c.request from hr] at hin
      exact List.any_eq_true.2 ⟨e, he, by simp [h.lock_eq hin hl, hd]⟩
  · rename_i hl
    exact ⟨hkeyed, fun e he => hneeded e he (fst_ne_of_lookup hl he)⟩

theorem exists_of_taken {found : Option Caller} {enabled : Caller → Prop} [DecidablePred enabled]
    {next : Caller → State} (h : (match found with
      | some c => if enabled c then some (next c) else none
      | none => none) = some s') : ∃ c, found = some c ∧ enabled c ∧ next c = s' := by
  split at h
  · rename_i c
    split at h
    · rename_i hc
      exact ⟨c, rfl, hc, Option.some.inj h⟩
    · cases h
  · cases h

theorem Guarded.step (h : s.Guarded) {st : Step} (hs : s.step st = some s') : s'.Guarded := by
  cases st with
  | enter r =>
    cases hs
    exact h.enter r
  | acquire call =>
    obtain ⟨c, hc, hok, rfl⟩ := exists_of_taken hs
    simp only [Bool.and_eq_true, decide_eq_true_eq, Bool.not_eq_true'] at hok
    exact h.setPhase hc (by simp [hok.1]) fun _ => hok.2
  | release call | again call | drop call =>
    obtain ⟨c, hc, hok, rfl⟩ := exists_of_taken hs
    exact h.setPhase hc (by simp [hok]) nofun
  | reap call =>
    obtain ⟨c, hc, -, rfl⟩ := exists_of_taken hs
    exact h.reap hc

theorem Guarded.steps (h : s.Guarded) (l : List Step) : (s.steps l).Guarded := by
  induction l generalizing s with
  | nil => exact h
  | cons st l ih =>
    refine ih (s := (s.step st).getD s) ?_
    cases hs : s.step st with
    | none => exact h
    | some s' => exact h.step hs

def handled (s : State) : Finset ReconcileRequest := (s.callers.map (·.2.request)).toFinset

/-- Attempts for one entity take turns, and locks are kept no longer than they are shared. -/
structure Serialized (s : State) : Prop where
  /-- No two calls are in an attempt for the same entity. -/
  alone : ∀ ⦃i j : Nat⦄ ⦃c d : Caller⦄, (i, c) ∈ s.callers → (j, d) ∈ s.callers →
    c.request = d.request → c.phase = .running → d.phase = .running → i = j
  /-- Calls for the same entity that have a share of a lock have it of the same lock. -/
  lock_eq : ∀ ⦃i j : Nat⦄ ⦃c d : Caller⦄, (i, c) ∈ s.callers → (j, d) ∈ s.callers →
    c.request = d.request → c.phase ≠ .dropped → d.phase ≠ .dropped → c.lock = d.lock
  tracked_le : s.tracked ≤ s.handled.card
  tracked_eq_zero : s.callers = [] → s.tracked = 0

theorem Keyed.lock_eq_of_shared (h : s.Keyed) {e e' : Nat × Caller} (he : e ∈ s.callers)
    (he' : e' ∈ s.callers) (hr : e.2.request = e'.2.request) (hp : e.2.phase ≠ .dropped)
    (hp' : e'.2.phase ≠ .dropped) : e.2.lock = e'.2.lock := by
  have hl := h.shared e he hp
  rw [hr] at hl
  exact h.lock_eq hl (h.shared e' he' hp')

theorem Guarded.tracked_le (h : s.Guarded) : s.tracked ≤ s.handled.card := by
  have hsub : (s.table.map (·.1)).toFinset ⊆ s.handled := by
    intro r hr
    obtain ⟨e, he, rfl⟩ := List.mem_map.1 (List.mem_toFinset.1 hr)
    obtain ⟨x, hx, hreq⟩ := h.needed e he
    exact List.mem_toFinset.2 (List.mem_map.2 ⟨x, hx, hreq⟩)
  calc s.tracked = (s.table.map (·.1)).length := (List.length_map _).symm
    _ = (s.table.map (·.1)).toFinset.card := (List.toFinset_card_of_nodup h.entities).symm
    _ ≤ s.handled.card := Finset.card_le_card hsub

theorem Guarded.serialized (h : s.Guarded) : s.Serialized where
  alone i j c d hc hd hr hp hp' :=
    h.exclusive _ hc _ hd hp hp'
      (h.lock_eq_of_shared hc hd hr (by simp [hp]) (by simp [hp']))
  lock_eq i j c d hc hd hr hp hp' := h.lock_eq_of_shared hc hd hr hp hp'
  tracked_le := h.tracked_le
  tracked_eq_zero hnone := by
    have hle := h.tracked_le
    simpa [handled, hnone] using hle

/-- Whatever calls enter, however many attempts each of them makes, and in whatever order their
steps are taken. -/
theorem serialized_steps (l : List Step) : (({} : State).steps l).Serialized :=
  (guarded_start.steps l).serialized

/-- A call that returns leaves the lock to the call that waits for it. -/
example :
    let r : ReconcileRequest := ⟨.tenant, ⟨"a", some "dc1"⟩⟩
    let s := ({} : State).steps
      [.enter r, .enter r, .acquire 0, .acquire 1, .release 0, .drop 0, .reap 0, .acquire 1]
    s.table = [(r, 0)] ∧ s.callers = [(1, ⟨r, 0, .running⟩)] := by decide

end State
end Locks

namespace Dispatch
namespace State
variable {s s₁ s₂ : State} {t : Task}

/-- From the locks of `s` to those of `s₁` there are steps. -/
def Leads (s s₁ : State) : Prop := ∃ l, s₁.locks = s.locks.steps l

theorem Leads.of_eq (h : s₁.locks = s.locks) : s.Leads s₁ := ⟨[], h⟩

theorem Leads.trans (h : s.Leads s₁) (h' : s₁.Leads s₂) : s.Leads s₂ := by
  obtain ⟨l, hl⟩ := h
  obtain ⟨l', hl'⟩ := h'
  exact ⟨l ++ l', by rw [hl', hl, Locks.State.steps, Locks.State.steps, Locks.State.steps,
    List.foldl_append]⟩

theorem locks_rest (s : State) (t : Task) (stop : Nat) : (s.rest t stop).locks = s.locks := by
  unfold rest
  split <;> rfl

theorem locks_start (s : State) (t : Task) : (s.start t).locks = s.locks := by
  unfold start
  exact locks_rest ..

theorem leads_release (s : State) (t : Task) : s.Leads (s.release t) := by
  unfold release
  split <;> exact ⟨_, rfl⟩

theorem leads_leave (s : State) (t : Task) : s.Leads (s.leave t) := ⟨_, rfl⟩

theorem leads_goOn {next : State → State} (s : State) (t : Task) (ending : Ending Unit)
    (h : s.Leads (next s)) : s.Leads (s.goOn t ending next) := by
  cases ending with
  | pending => exact h
  | result r => exact leads_leave ..
  | fault f => exact ⟨_, rfl⟩

theorem leads_finish (c : RetryConfig) (s : State) (t : Task) (failure : Option Error) :
    s.Leads (s.finish c t failure) := by
  refine (leads_release s t).trans (leads_goOn _ t _ ?_)
  split
  · exact leads_leave ..
  · exact .of_eq (locks_rest ..)

theorem leads_turn (c : RetryConfig) (s : State) (t : Task) : s.Leads (s.turn c t) := by
  unfold turn
  split
  · split
    · rename_i locks h
      refine ⟨[.acquire t.call], (locks_start ..).trans ?_⟩
      simp [Locks.State.steps, h]
    · exact .of_eq rfl
  · exact .of_eq (locks_start ..)
  · exact leads_finish ..
  · exact leads_goOn s t _ ⟨_, rfl⟩
  · exact .of_eq rfl

theorem leads_foldl {α : Type} {f : State → α → State} (h : ∀ (s : State) a, s.Leads (f s a))
    (l : List α) (s : State) : s.Leads (l.foldl f s) := by
  induction l generalizing s with
  | nil => exact .of_eq rfl
  | cons a l ih => exact (h s a).trans (ih _)

theorem leads_take (s : State) : s.Leads s.take := by
  unfold take
  split
  · exact .of_eq rfl
  · exact (leads_foldl (fun s a => ⟨[.enter a.request], rfl⟩) _ s).trans (.of_eq rfl)

theorem leads_moment (cancelAt : Option Nat) (time : Nat) (s : State) :
    s.Leads (s.moment cancelAt time) := by
  unfold moment
  dsimp only
  refine Leads.trans (.of_eq ?_) (leads_take _)
  split <;> rfl

theorem leads_run (c : RetryConfig) (cancelAt : Option Nat) (fuel : Nat) (s : State) :
    s.Leads (s.run c cancelAt fuel) := by
  induction fuel generalizing s with
  | zero => exact .of_eq rfl
  | succ fuel ih =>
    unfold run
    split
    · rename_i t ready _
      have hturn : s.Leads ({ s with ready }.turn c t) := leads_turn c { s with ready } t
      exact hturn.trans (ih _)
    · split
      · exact (leads_moment ..).trans (ih _)
      · exact .of_eq rfl

end State

theorem serialized_simulate (c : RetryConfig) (cancelAt : Option Nat) (arrivals : List Arrival) :
    (simulate c cancelAt arrivals).locks.Serialized := by
  obtain ⟨l, hl⟩ := (State.leads_moment cancelAt 0 { plan := arrivals, arrivals }).trans
    (State.leads_run c cancelAt (steps arrivals) _)
  rw [simulate, hl]
  exact (Locks.State.guarded_start.steps l).serialized

end Dispatch
end TenantOperator
