import TenantOperator.Proofs.Interleaving.Pool

/-! Runs that clear up behind themselves. When each run that may have put an object deletes it
before it ends well, unless it finds the owner alive, the object does not outlive its owner, in
whatever order the runs take their turns. -/
namespace TenantOperator

/-- Answers of a store in which a slot is empty. -/
def Call.Misses (k : Kind) (key : Key) : (c : Call) → Except Error c.Answer → Prop
  | .get k' key', .ok (some _) => ¬(k' = k ∧ key' = key)
  | _, _ => True

/-- Calls that put neither the tenant `owner` nor the object. -/
def Call.Spares (owner : Key) (k : Kind) (key : Key) (c : Call) : Prop :=
  ¬c.Puts .tenant owner ∧ ¬c.Puts k key

theorem Store.misses {s : Store} {k : Kind} {key : Key} (h : s.find? k key = none) (c : Call) :
    c.Misses k key (s.perform c).1 := by
  rcases s.perform_eq c with he | ⟨p, l, he⟩ <;> rw [he]
  · cases c with
    | get k' key' =>
      simp only [Store.answer]
      cases hr : s.find? k' key' with
      | none => trivial
      | some r =>
        rintro ⟨rfl, rfl⟩
        rw [h] at hr
        cases hr
    | list k ns labels => trivial
    | create k r => trivial
    | update k r => trivial
    | delete k key => trivial
  · cases c <;> trivial

theorem Store.find?_answer_eq_none {s : Store} {k : Kind} {key : Key} (h : s.find? k key = none)
    {c : Call} (hc : ¬c.Puts k key) : (s.answer c).2.find? k key = none := by
  by_cases hd : c = .delete k key
  · subst hd
    exact s.find?_remove_self k key
  · rw [s.find?_answer_of_not_writes fun hw => hw.elim hc hd, h]

theorem Store.find?_perform_eq_none {s : Store} {k : Kind} {key : Key} (h : s.find? k key = none)
    {c : Call} (hc : ¬c.Puts k key) : (s.perform c).2.find? k key = none := by
  rcases s.perform_eq c with he | ⟨p, l, he⟩ <;> rw [he]
  · exact find?_answer_eq_none h hc
  · rw [find?_setFaults, h]

theorem Store.find?_perform_delete {s : Store} {k : Kind} {key : Key}
    (h : (s.perform (.delete k key)).1.isOk) :
    (s.perform (.delete k key)).2.find? k key = none := by
  rcases s.perform_eq (.delete k key) with he | ⟨p, l, he⟩ <;> rw [he] at h ⊢
  · exact s.find?_remove_self k key
  · cases h

namespace Program
variable {α β : Type} (owner : Key) (k : Kind) (key : Key)

/-- While the tenant `owner` is gone, every way to end well deletes the object. -/
def Clears : Program α → Prop
  | .done (.ok _) => False
  | .done (.error _) => True
  | .call c next => ∀ a, c.Misses .tenant owner a →
    (c = .delete k key ∧ a.isOk) ∨ (next a).Clears

/-- The tenant is never put, and after the object may have been put, what is left clears it. -/
def Tidy : Program α → Prop
  | .done _ => True
  | .call c next => ¬c.Puts .tenant owner ∧ ∀ a, c.Admits a →
    (c.Puts k key → (next a).Clears owner k key) ∧ (next a).Tidy

variable {owner k key}

theorem clears_bind_left {p : Program α} {f : α → Program β} (h : p.Clears owner k key) :
    (p >>= f).Clears owner k key := by
  induction p with
  | done r =>
    cases r with
    | ok a => exact h.elim
    | error e => trivial
  | call c next ih => exact fun a ha => (h a ha).imp id (ih a)

theorem clears_bind_right {p : Program α} {f : α → Program β}
    (h : ∀ a, (f a).Clears owner k key) : (p >>= f).Clears owner k key := by
  induction p with
  | done r =>
    cases r with
    | ok a => exact h a
    | error e => trivial
  | call c next ih => exact fun a _ => Or.inr (ih a)

theorem clears_delete : (Program.delete k key).Clears owner k key := by
  intro a _
  cases a with
  | ok b => exact Or.inl ⟨rfl, rfl⟩
  | error e => exact Or.inr trivial

theorem clears_get_bind {f : Option Tenant → Program β} (h : (f none).Clears owner k key) :
    (Program.get .tenant owner >>= f).Clears owner k key := by
  intro a ha
  cases a with
  | error e => exact Or.inr trivial
  | ok r =>
    cases r with
    | none => exact Or.inr h
    | some r => exact absurd ⟨rfl, rfl⟩ ha

theorem tidy_of_every {p : Program α} (h : p.Every (Call.Spares owner k key)) :
    p.Tidy owner k key := by
  induction p with
  | done r => trivial
  | call c next ih => exact ⟨h.1.1, fun a ha => ⟨fun hp => absurd hp h.1.2, ih a (h.2 a ha)⟩⟩

theorem tidy_bind {p : Program α} {f : α → Program β} (hp : p.Tidy owner k key)
    (hf : ∀ a, (f a).Tidy owner k key) : (p >>= f).Tidy owner k key := by
  induction p with
  | done r =>
    cases r with
    | ok a => exact hf a
    | error e => trivial
  | call c next ih =>
    exact ⟨hp.1, fun a ha => ⟨fun h => clears_bind_left ((hp.2 a ha).1 h), ih a (hp.2 a ha).2⟩⟩

/-- Whatever comes first is cleared up by what comes after it. -/
theorem tidy_bind_of_clears {p : Program α} {f : α → Program β}
    (hp : p.Every fun c => ¬c.Puts .tenant owner) (hc : ∀ a, (f a).Clears owner k key)
    (hf : ∀ a, (f a).Tidy owner k key) : (p >>= f).Tidy owner k key := by
  induction p with
  | done r =>
    cases r with
    | ok a => exact hf a
    | error e => trivial
  | call c next ih =>
    exact ⟨hp.1, fun a ha => ⟨fun _ => clears_bind_right hc, ih a (hp.2 a ha)⟩⟩

end Program

namespace Pool
variable {ι α : Type} {P : Pool ι α} {owner : Key} {k : Kind} {key : Key}

structure Orderly (owner : Key) (k : Kind) (key : Key) (P : Pool ι α) : Prop where
  filed : P.store.Filed
  tidy : ∀ i, (P.runs i).Tidy owner k key

/-- From the moment at which the owner is gone, the object is gone or one of the runs clears it. -/
structure Clearing (owner : Key) (k : Kind) (key : Key) (P : Pool ι α) : Prop
    extends Orderly owner k key P where
  gone : P.store.find? .tenant owner = none
  cleared : P.store.find? k key = none ∨ ∃ i, (P.runs i).Clears owner k key

theorem Clearing.find?_eq_none (h : Clearing owner k key P)
    (hok : ∀ i, ∃ a, P.runs i = .done (.ok a)) : P.store.find? k key = none := by
  refine h.cleared.resolve_right ?_
  rintro ⟨i, hi⟩
  obtain ⟨a, ha⟩ := hok i
  rw [ha] at hi
  exact hi

variable [DecidableEq ι]

theorem Orderly.step (h : Orderly owner k key P) (e : Event ι) :
    Orderly owner k key (P.step e) where
  filed := filed_step h.filed e
  tidy i := by
    have ht := h.tidy i
    rcases runs_step_cases P e i with hi | ⟨c, next, -, hc, hi⟩ <;> rw [hi]
    · exact ht
    · rw [hc] at ht
      exact (ht.2 _ (h.filed.admits c)).2

theorem Orderly.exec (h : Orderly owner k key P) (es : List (Event ι)) :
    Orderly owner k key (P.exec es) := by
  induction es generalizing P with
  | nil => exact h
  | cons e es ih => exact ih (h.step e)

/-- The next call of a run puts the object, and then the run clears it; or it deletes the object; or
it does neither. -/
theorem Clearing.step_run (h : Clearing owner k key P) (i : ι) :
    Clearing owner k key (P.step (.run i)) := by
  cases hi : P.runs i with
  | done r => rwa [step_run_of_done hi]
  | call c next =>
    have ht := h.tidy i
    rw [hi] at ht
    refine ⟨h.toOrderly.step _, ?_, ?_⟩
    · rw [store_step_run hi]
      exact Store.find?_perform_eq_none h.gone ht.1
    rw [store_step_run hi]
    by_cases hput : c.Puts k key
    · refine Or.inr ⟨i, ?_⟩
      rw [runs_step_run_self hi]
      exact (ht.2 _ (h.filed.admits c)).1 hput
    rcases h.cleared with hx | ⟨j, hj⟩
    · exact Or.inl (Store.find?_perform_eq_none hx hput)
    by_cases hji : j = i
    · subst hji
      rw [hi] at hj
      rcases hj _ (Store.misses h.gone c) with ⟨rfl, hok⟩ | hnext
      · exact Or.inl (Store.find?_perform_delete hok)
      · refine Or.inr ⟨j, ?_⟩
        rwa [runs_step_run_self hi]
    · refine Or.inr ⟨j, ?_⟩
      rwa [runs_step_run_of_ne hji]

theorem Clearing.step_call (h : Clearing owner k key P) {c : Call} (hc : c.Spares owner k key) :
    Clearing owner k key (P.step (.call c)) :=
  ⟨h.toOrderly.step _, Store.find?_answer_eq_none h.gone hc.1,
    h.cleared.imp (fun hx => Store.find?_answer_eq_none hx hc.2) id⟩

theorem Clearing.exec (h : Clearing owner k key P) {es : List (Event ι)}
    (hes : ∀ c, .call c ∈ es → c.Spares owner k key) : Clearing owner k key (P.exec es) := by
  induction es generalizing P with
  | nil => exact h
  | cons e es ih =>
    have hrest : ∀ c, .call c ∈ es → c.Spares owner k key := fun c hc =>
      hes c (List.mem_cons_of_mem e hc)
    cases e with
    | run i => exact ih (h.step_run i) hrest
    | call c => exact ih (h.step_call (hes c List.mem_cons_self)) hrest

end Pool
end TenantOperator
