import TenantOperator.Proofs.Tenancy.Steps
import TenantOperator.Proofs.Tenancy.Sync

/-! Runs whose calls may fail, and which may be left at any time. A reconcile that meets such
failures never leaves the stores that its undisturbed run comes through, and it ends well only as
that run does. -/
namespace TenantOperator
open Store

namespace Store.Calm
variable {α : Type} {s x : Store} {p : Program α}

theorem run (hs : s.Calm) {r : Except Error α} (h : p.run s = (r, x)) : x.Calm := by
  induction p generalizing s with
  | done r =>
    cases h
    exact hs
  | call c next ih =>
    rw [Program.run, hs.perform c] at h
    exact ih _ (hs.answer c) h

end Store.Calm

namespace Program
variable {α β : Type} {s s' x : Store} {p : Program α} {f : α → Program β}

/-- Begun on a store, the program can come to a rest of it and to another store. Every call is
answered, or it fails without an effect; no failure says of an object that it exists. -/
inductive Falters : Program α → Store → Program α → Store → Prop
  | refl (p : Program α) (s : Store) : Falters p s p s
  | answered {c : Call} {next : Except Error c.Answer → Program α} {s s' : Store} {q : Program α} :
      Falters (next (s.answer c).1) (s.answer c).2 q s' → Falters (.call c next) s q s'
  | failed {c : Call} {next : Except Error c.Answer → Program α} {s s' : Store} {q : Program α}
      (e : Error) (he : e.isAlreadyExists = false) :
      Falters (next (.error e)) s q s' → Falters (.call c next) s q s'

/-- The run from `s` comes through `x`. -/
def Passes : Program α → Store → Store → Prop
  | .done _, s, x => x = s
  | .call c next, s, x => x = s ∨ (next (s.perform c).1).Passes (s.perform c).2 x

theorem passes_start (p : Program α) (s : Store) : p.Passes s s := by
  cases p with
  | done r => rfl
  | call c next => exact Or.inl rfl

theorem passes_end (p : Program α) (s : Store) : p.Passes s (p.run s).2 := by
  induction p generalizing s with
  | done r => rfl
  | call c next ih => exact Or.inr (ih _ _)

theorem passes_bind : (p >>= f).Passes s x ↔
    p.Passes s x ∨ ∃ a s₁, p.run s = (.ok a, s₁) ∧ (f a).Passes s₁ x := by
  induction p generalizing s with
  | done r =>
    cases r with
    | ok a =>
      constructor
      · exact fun h => Or.inr ⟨a, s, rfl, h⟩
      · rintro (rfl | ⟨_, _, he, h⟩)
        · exact passes_start ..
        · cases he
          exact h
    | error e =>
      constructor
      · exact Or.inl
      · rintro (h | ⟨_, _, he, -⟩)
        · exact h
        · cases he
  | call c next ih => exact (or_congr_right (ih _)).trans or_assoc.symm

theorem Passes.calm (hs : s.Calm) (hx : p.Passes s x) : x.Calm := by
  induction p generalizing s with
  | done r => exact hx ▸ hs
  | call c next ih =>
    rcases hx with rfl | hx
    · exact hs
    · rw [hs.perform c] at hx
      exact ih _ (hs.answer c) hx

theorem Every.passes {Q : Call → Prop} {I : Store → Prop} (h : p.Every Q)
    (keep : ∀ s c, I s → Q c → I (s.perform c).2) (hs : s.Filed) (hi : I s) (hx : p.Passes s x) :
    I x ∧ x.Filed := by
  induction p generalizing s with
  | done r => exact hx ▸ ⟨hi, hs⟩
  | call c next ih =>
    rcases hx with rfl | hx
    · exact ⟨hi, hs⟩
    · exact ih _ (h.2 _ (hs.admits c)) (hs.perform c) (keep s c hi h.1) hx

theorem Within.passes {P : Kind → Key → Prop} (h : p.Within P) (hs : s.Filed)
    (hx : p.Passes s x) : AgreeOff P s x := by
  refine (Every.passes (I := AgreeOff P s) h (fun s' c hi hc => ?_) hs (.refl P s) hx).1
  exact hi.trans fun k key hp => s'.find?_perform_of_not_writes fun hw => hp (hc k key hw)

theorem Every.falters {Q : Call → Prop} {I : Store → Prop} {q : Program α} (h : p.Every Q)
    (keep : ∀ s c, I s → Q c → I (s.answer c).2) (hs : s.Filed) (hi : I s)
    (hx : p.Falters s q x) : q.Every Q ∧ I x ∧ x.Filed := by
  induction hx with
  | refl p s => exact ⟨h, hi, hs⟩
  | answered _ ih => exact ih (h.2 _ (hs.admits_answer _)) (hs.answer _) (keep _ _ hi h.1)
  | failed e _ _ ih => exact ih (h.2 _ (Call.admits_error _ e)) hs hi

theorem Passes.falters (hs : s.Calm) (hx : p.Passes s x) : ∃ q, p.Falters s q x := by
  induction p generalizing s with
  | done r =>
    cases hx
    exact ⟨_, .refl ..⟩
  | call c next ih =>
    rcases hx with rfl | hx
    · exact ⟨_, .refl ..⟩
    · rw [hs.perform c] at hx
      obtain ⟨q, hq⟩ := ih _ (hs.answer c) hx
      exact ⟨q, .answered hq⟩

theorem Falters.trans {q r : Program α} (h : p.Falters s q s') (h' : q.Falters s' r x) :
    p.Falters s r x := by
  induction h with
  | refl => exact h'
  | answered _ ih => exact .answered (ih h')
  | failed e he _ ih => exact .failed e he (ih h')

/-- What is left of a program once some calls were answered, and the store. -/
def steps : Nat → Program α → Store → Program α × Store
  | n + 1, .call c next, s => steps n (next (s.answer c).1) (s.answer c).2
  | _, p, s => (p, s)

theorem falters_steps (n : Nat) (p : Program α) (s : Store) :
    p.Falters s (p.steps n s).1 (p.steps n s).2 := by
  induction n generalizing p s with
  | zero => exact .refl p s
  | succ n ih =>
    cases p with
    | done r => exact .refl _ s
    | call c next => exact .answered (ih _ _)

theorem falters_call {c : Call} {next : Except Error c.Answer → Program α} {q : Program α}
    (h : (Program.call c next).Falters s q x) :
    (q = .call c next ∧ x = s) ∨ (next (s.answer c).1).Falters (s.answer c).2 q x ∨
      ∃ e, e.isAlreadyExists = false ∧ (next (.error e)).Falters s q x := by
  cases h with
  | refl => exact Or.inl ⟨rfl, rfl⟩
  | answered h => exact Or.inr (Or.inl h)
  | failed e he h => exact Or.inr (Or.inr ⟨e, he, h⟩)

theorem falters_bind {r : Program β} (h : (p >>= f).Falters s r x) :
    (∃ q, p.Falters s q x ∧ r = q >>= f) ∨
      ∃ a s₁, p.Falters s (.done (.ok a)) s₁ ∧ (f a).Falters s₁ r x := by
  induction p generalizing s with
  | done res =>
    cases res with
    | ok a => exact Or.inr ⟨a, s, .refl .., h⟩
    | error e =>
      cases h
      exact Or.inl ⟨_, .refl .., rfl⟩
  | call c next ih =>
    cases h with
    | refl => exact Or.inl ⟨_, .refl .., rfl⟩
    | answered h =>
      rcases ih _ h with ⟨q, hq, rfl⟩ | ⟨a, s₁, hp, hf⟩
      · exact Or.inl ⟨q, .answered hq, rfl⟩
      · exact Or.inr ⟨a, s₁, .answered hp, hf⟩
    | failed e he h =>
      rcases ih _ h with ⟨q, hq, rfl⟩ | ⟨a, s₁, hp, hf⟩
      · exact Or.inl ⟨q, .failed e he hq, rfl⟩
      · exact Or.inr ⟨a, s₁, .failed e he hp, hf⟩

theorem eq_done_of_bind_eq {q : Program α} {b : β} (h : q >>= f = .done (.ok b)) :
    ∃ a, q = .done (.ok a) ∧ f a = .done (.ok b) := by
  cases q with
  | done r =>
    cases r with
    | ok a => exact ⟨a, rfl, h⟩
    | error e => cases h
  | call c next => cases h

/-- Whatever calls fail, the program stays among the stores that its undisturbed run comes through,
and ends well only as that run does. -/
def Steadfast (p : Program α) : Prop :=
  ∀ ⦃s : Store⦄ ⦃q : Program α⦄ ⦃x : Store⦄, s.Calm → p.Falters s q x →
    p.Passes s x ∧ ∀ a, q = .done (.ok a) → p.run s = (.ok a, x)

theorem steadfast_done (r : Except Error α) : (.done r : Program α).Steadfast := by
  intro s q x hs h
  cases h
  exact ⟨rfl, fun a ha => by cases ha; rfl⟩

theorem steadfast_perform (c : Call) : (perform c).Steadfast := by
  intro s q x hs h
  have hrun : s.perform c = s.answer c := hs.perform c
  cases h with
  | refl => exact ⟨passes_start .., fun a ha => by cases ha⟩
  | answered h =>
    cases h
    refine ⟨Or.inr (congrArg Prod.snd hrun.symm), fun a ha => ?_⟩
    rw [run_perform, hrun, ← (Program.done.inj ha)]
  | failed e he h =>
    cases h
    exact ⟨passes_start .., fun a ha => by cases ha⟩

theorem Steadfast.bind (hp : p.Steadfast) (hf : ∀ a, (f a).Steadfast) : (p >>= f).Steadfast := by
  intro s r x hs h
  rcases falters_bind h with ⟨q, hq, rfl⟩ | ⟨a, s₁, hq, h⟩
  · -- The run was left in the first part, or that part was the last one to make a call.
    obtain ⟨hpass, hrun⟩ := hp hs hq
    refine ⟨passes_bind.2 (Or.inl hpass), fun b hb => ?_⟩
    obtain ⟨a, rfl, hfa⟩ := eq_done_of_bind_eq hb
    rw [run_bind_of_ok (hrun a rfl), hfa]
    rfl
  · have hrun := (hp hs hq).2 a rfl
    obtain ⟨hpass, hend⟩ := hf a (hs.run hrun) h
    refine ⟨passes_bind.2 (Or.inr ⟨a, s₁, hrun, hpass⟩), fun b hb => ?_⟩
    rw [run_bind_of_ok hrun, hend b hb]

end Program

namespace Upsert
open Program
variable {k : Kind} {s x : Store} {key : Key} {change : Option (Resource k) → Option (Resource k)}

def decided (key : Key) (change : Option (Resource k) → Option (Resource k)) (n : Nat)
    (current : Option (Resource k)) : Program (Except Error WriteOutcome × Unit) :=
  match change current with
  | none => pure (.ok .unchanged, ())
  | some r => (write current r).attempt >>= fun
    | .ok o => pure (.ok o, ())
    | .error e => if lost current e then rounds key (fun (_ : Unit) r => (.ok (change r), ())) n ()
      else pure (.error e, ())

theorem rounds_succ (key : Key) (change : Option (Resource k) → Option (Resource k)) (n : Nat) :
    rounds key (fun (_ : Unit) r => (.ok (change r), ())) (n + 1) () =
      .call (.get k key) fun
        | .error e => pure (.error e, ())
        | .ok current => decided key change n current := by
  rw [rounds]
  refine congrArg (Program.call _) (funext fun a => ?_)
  cases a with
  | error e => rfl
  | ok current =>
    simp only [Program.attempt, Program.bind, decided]
    cases change current <;> rfl

/-- The change was written once or not at all, and rounds that ended well wrote it. -/
def Once (s : Store) (key : Key) (change : Option (Resource k) → Option (Resource k))
    (q : Program (Except Error WriteOutcome × Unit)) (x : Store) : Prop :=
  (x = s ∨ x = s.upserted key change) ∧ ∀ o u, q = .done (.ok (.ok o, u)) →
    o = outcome change (s.find? k key) ∧ x = s.upserted key change

theorem once_of_call {c : Call} {next : Except Error c.Answer → Program _} :
    Once s key change (.call c next) s :=
  ⟨Or.inl rfl, fun _ _ hq => by cases hq⟩

theorem once_of_error {e : Error} {q : Program _}
    (h : (pure (.error e, ()) : Program (Except Error WriteOutcome × Unit)).Falters s q x) :
    Once s key change q x := by
  cases h
  exact ⟨Or.inl rfl, fun _ _ hq => by cases hq⟩

theorem once_of_lost {current : Option (Resource k)} {e : Error} {n : Nat} {q : Program _}
    (ih : (rounds key (fun (_ : Unit) r => (.ok (change r), ())) n ()).Falters s q x →
      Once s key change q x)
    (h : (if lost current e then rounds key (fun (_ : Unit) r => (.ok (change r), ())) n ()
      else pure (.error e, ())).Falters s q x) : Once s key change q x := by
  split at h
  · exact ih h
  · exact once_of_error h

theorem once_of_decided (hs : s.Calm) (hk : Fits key change) {n : Nat} {q : Program _}
    (ih : (rounds key (fun (_ : Unit) r => (.ok (change r), ())) n ()).Falters s q x →
      Once s key change q x)
    (h : (decided key change n (s.find? k key)).Falters s q x) : Once s key change q x := by
  cases hc : change (s.find? k key) with
  | none =>
    simp only [decided, hc] at h
    cases h
    refine ⟨Or.inl rfl, fun o u hq => ?_⟩
    cases hq
    exact ⟨by simp [outcome, hc], (upserted_of_none hc).symm⟩
  | some r =>
    obtain ⟨rfl, hname⟩ := hk.find? hs.filed hc
    have hput : s.put r.key r = s.upserted r.key change := by simp only [Store.upserted, hc]
    have hout : outcome change (s.find? k r.key) =
        if (s.find? k r.key).isSome then .updated else .created := by simp only [outcome, hc]
    simp only [decided, hc] at h
    obtain hf | ⟨c, hf⟩ := Option.eq_none_or_eq_some (s.find? k r.key) <;> rw [hf] at h hout
    · obtain ⟨m, hm⟩ := Option.isSome_iff_exists.1 (hname hf)
      rcases falters_call (c := .create k r) h with ⟨rfl, rfl⟩ | h | ⟨e, -, h⟩
      · exact once_of_call
      · simp only [Store.answer, create_of_named hm, hf] at h
        cases h
        refine ⟨Or.inr hput, fun o u hq => ?_⟩
        cases hq
        exact ⟨by rw [hf, hout]; rfl, hput⟩
      · exact once_of_lost ih h
    · let r' := r.withVersion c.metadata.resourceVersion
      have hu : s.update r' = (.ok (s.write r.key r').1, s.put r.key r) :=
        update_of_found (r := r') hf rfl
      rcases falters_call (c := .update k r') h with ⟨rfl, rfl⟩ | h | ⟨e, -, h⟩
      · exact once_of_call
      · simp only [Store.answer, hu] at h
        cases h
        refine ⟨Or.inr hput, fun o u hq => ?_⟩
        cases hq
        exact ⟨by rw [hf, hout]; rfl, hput⟩
      · exact once_of_lost ih h

theorem once_of_rounds (hs : s.Calm) (hk : Fits key change) (n : Nat) {q : Program _}
    (h : (rounds key (fun (_ : Unit) r => (.ok (change r), ())) n ()).Falters s q x) :
    Once s key change q x := by
  induction n with
  | zero => exact once_of_error h
  | succ n ih =>
    rw [rounds_succ] at h
    rcases falters_call h with ⟨rfl, rfl⟩ | h | ⟨e, -, h⟩
    · exact once_of_call
    · exact once_of_decided hs hk ih h
    · exact once_of_error h

end Upsert

namespace Program
variable {α : Type} {k : Kind} {s x : Store}

/-- A program that does one thing or nothing is steadfast. -/
theorem steadfast_of_once {p : Program α} (h : ∀ s : Store, s.Calm → ∃ a s₁, p.run s = (.ok a, s₁) ∧
    ∀ q x, p.Falters s q x → (x = s ∨ x = s₁) ∧ ∀ b, q = .done (.ok b) → b = a ∧ x = s₁) :
    p.Steadfast := by
  intro s q x hs hq
  obtain ⟨a, s₁, hrun, h⟩ := h s hs
  obtain ⟨hx, hok⟩ := h q x hq
  refine ⟨?_, fun b hb => ?_⟩
  · rcases hx with rfl | rfl
    · exact passes_start ..
    · have hend := passes_end p s
      rwa [hrun] at hend
  · obtain ⟨rfl, rfl⟩ := hok b hb
    exact hrun

theorem falters_upsert (hs : s.Calm) {key : Key} {n : Nat}
    {change : Option (Resource k) → Option (Resource k)} (hk : Upsert.Fits key change)
    {q : Program WriteOutcome} (h : (upsert key n change).Falters s q x) :
    (x = s ∨ x = s.upserted key change) ∧ ∀ o, q = .done (.ok o) →
      o = Upsert.outcome change (s.find? k key) ∧ x = s.upserted key change := by
  rcases falters_bind h with ⟨q, hq, rfl⟩ | ⟨⟨r, u⟩, s₁, hq, h⟩
  · obtain ⟨hx, hok⟩ := Upsert.once_of_rounds hs hk _ hq
    refine ⟨hx, fun o ho => ?_⟩
    obtain ⟨⟨r, u⟩, rfl, hr⟩ := eq_done_of_bind_eq ho
    cases hr
    exact hok o u rfl
  · obtain ⟨hx, hok⟩ := Upsert.once_of_rounds hs hk _ hq
    cases h
    refine ⟨hx, fun o ho => ?_⟩
    cases ho
    exact hok o u rfl

theorem steadfast_upsert {key : Key} {n : Nat}
    {change : Option (Resource k) → Option (Resource k)} (hk : Upsert.Fits key change) :
    (upsert key n change).Steadfast :=
  steadfast_of_once fun _ hs => ⟨_, _, hs.run_upsert key n hk, fun _ _ => falters_upsert hs hk⟩

theorem falters_ensureCreated (hs : s.Calm) {r : Resource k} {m : String}
    (hn : r.metadata.name = some m) {q : Program Bool} (h : (ensureCreated r).Falters s q x) :
    (x = s ∨ x = s.ensured r) ∧ ∀ b, q = .done (.ok b) →
      b = (s.find? k r.key).isNone ∧ x = s.ensured r := by
  rcases falters_call (c := .create k r) h with ⟨rfl, rfl⟩ | h | ⟨e, he, h⟩
  · exact ⟨Or.inl rfl, fun _ hq => by cases hq⟩
  · simp only [Store.answer, create_of_named hn] at h
    by_cases hr : (s.find? k r.key).isSome
    · rw [if_pos hr] at h
      cases h
      refine ⟨Or.inl rfl, fun b hb => ?_⟩
      cases hb
      exact ⟨by simpa using hr, (ensured_of_isSome hr).symm⟩
    · rw [if_neg hr] at h
      cases h
      have hput : s.put r.key r = s.ensured r := by rw [Store.ensured, if_neg hr]
      refine ⟨Or.inr hput, fun b hb => ?_⟩
      cases hb
      exact ⟨by simpa using hr, hput⟩
  · replace h :
        (if e.isAlreadyExists then pure false else .fail e : Program Bool).Falters s q x := h
    rw [he] at h
    cases h
    exact ⟨Or.inl rfl, fun _ hq => by cases hq⟩

theorem steadfast_ensureCreated {r : Resource k} {m : String} (hn : r.metadata.name = some m) :
    (ensureCreated r).Steadfast :=
  steadfast_of_once fun _ hs => ⟨_, _, hs.run_ensureCreated hn, fun _ _ =>
    falters_ensureCreated hs hn⟩

end Program

namespace ResolvedPairing
open Program

theorem steadfast_remember (ns : String) (areas : SortedMap String (Option String)) (id : String) :
    (remember ns areas id).Steadfast := by
  rw [remember]
  split
  · exact steadfast_done _
  · exact (steadfast_perform _).bind fun _ => steadfast_done _

theorem steadfast_lookUp (ns : String) (ps : List Pairing)
    (areas : SortedMap String (Option String)) : (lookUp ns areas ps).Steadfast := by
  induction ps generalizing areas with
  | nil => exact steadfast_done _
  | cons p ps ih =>
    rw [lookUp_cons]
    refine (steadfast_remember ..).bind fun areas => (ih areas).bind fun rest => ?_
    split <;> exact steadfast_done _

end ResolvedPairing

open Program

theorem steadfast_resolveForTenant (ns tenant : String) :
    (resolveForTenant ns tenant).Steadfast :=
  (steadfast_perform _).bind fun _ => (ResolvedPairing.steadfast_lookUp ..).bind fun _ =>
    steadfast_done _

namespace Reconcile
variable (st : Settings) (ns tenant : String)

theorem steadfast_deleteTable : (Routing.delete ns tenant).Steadfast := by
  refine (steadfast_perform _).bind fun b => ?_
  cases b <;> exact steadfast_done _

theorem steadfast_rebuild : (Routing.rebuild st ns tenant).Steadfast := by
  refine (steadfast_resolveForTenant ns tenant).bind fun pairings => ?_
  split
  · exact steadfast_deleteTable ns tenant
  · rename_i wanted h
    exact steadfast_upsert (Routing.fits_replace h)

theorem steadfast_discardIfTenantGone : (Teardown.discardIfTenantGone ns tenant).Steadfast := by
  refine (steadfast_perform _).bind fun t => ?_
  cases t with
  | some t => exact steadfast_done _
  | none =>
    refine Steadfast.bind ?_ fun _ => (steadfast_deleteTable ns tenant).bind fun _ =>
      steadfast_done _
    refine (steadfast_perform _).bind fun b => ?_
    cases b <;> exact steadfast_done _

theorem steps_steadfast : Steps st fun _ p => p.Steadfast where
  done := steadfast_done
  bind := Steadfast.bind
  read _ := steadfast_perform _
  delete _ _ := steadfast_perform _
  makePairing _ tenant m _ := steadfast_ensureCreated (m := Naming.pairing tenant m) rfl
  makeService _ t m := steadfast_ensureCreated (m := Naming.pairing t.name m.name) rfl
  makeDeployment _ t m := steadfast_ensureCreated (m := Naming.pairing t.name m.name) rfl
  makeSpace i := steadfast_ensureCreated (m := i) rfl
  makeBundle i _ := steadfast_ensureCreated (m := Naming.instanceBundle i) rfl
  sync ns tenant :=
    (steadfast_resolveForTenant ns tenant).bind fun _ =>
      (steadfast_upsert Bundle.fits_mergeInto).bind fun _ =>
      (steadfast_rebuild st ns tenant).bind fun _ =>
      (steadfast_discardIfTenantGone ns tenant).bind fun _ => steadfast_done _
  publish ns tenant _ _ :=
    (steadfast_upsert Bundle.fits_setEntry).bind fun _ =>
      (steadfast_rebuild st ns tenant).bind fun _ => steadfast_discardIfTenantGone ns tenant

end Reconcile

/-- A reconcile that meets failures stays on the way of the undisturbed one. -/
theorem steadfast_reconcile (st : Settings) (r : ReconcileRequest) :
    (reconcile st r).Steadfast :=
  (Reconcile.steps_steadfast st).reconcile r

theorem Store.answer_setFaults (s : Store) (l : List PendingFault) (c : Call) :
    ({ s with faults := l } : Store).answer c =
      ((s.answer c).1, { (s.answer c).2 with faults := l }) := by
  cases c with
  | get k key => exact congrArg (fun r => (Except.ok r, _)) (s.find?_setFaults l k key)
  | list k ns labels => cases k <;> rfl
  | create k r =>
    simp only [answer, create, find?_setFaults]
    split
    · rfl
    · split
      · rfl
      · cases k <;> rfl
  | update k r =>
    simp only [answer, update, find?_setFaults]
    split
    · rfl
    · split
      · rfl
      · cases k <;> rfl
  | delete k key =>
    simp only [answer, find?_setFaults]
    cases k <;> rfl

theorem Program.falters_run {α : Type} (p : Program α) (s : Store) :
    ∃ x, p.Falters { s with faults := [] } (.done (p.run s).1) x ∧
      (p.run s).2 = { x with faults := (p.run s).2.faults } := by
  induction p generalizing s with
  | done r => exact ⟨_, .refl _ _, rfl⟩
  | call c next ih =>
    rw [Program.run]
    rcases s.perform_eq c with he | ⟨e, l, he⟩ <;> rw [he]
    · obtain ⟨x, hx, hr⟩ := ih (s.answer c).1 (s.answer c).2
      refine ⟨x, .answered ?_, hr⟩
      rwa [answer_setFaults]
    · obtain ⟨x, hx, hr⟩ := ih (.error e.error) { s with faults := l }
      exact ⟨x, .failed e.error (isAlreadyExists_fault e) hx, hr⟩

/-- Whatever faults it meets, a run stops at a store that the run without faults comes through. -/
theorem Program.Steadfast.passes_run {α : Type} {p : Program α} (h : p.Steadfast) {s : Store}
    (hs : s.Filed) : ∃ x l, p.Passes { s with faults := [] } x ∧
      (p.run s).2 = { x with faults := l } := by
  obtain ⟨x, hx, hr⟩ := p.falters_run s
  exact ⟨x, _, (h hs.calm_setFaults hx).1, hr⟩

end TenantOperator
