import TenantOperator.Proofs.Store.History
import TenantOperator.Proofs.Interruption.Falters

/-! An upsert with a change that keeps a state and may fail, on a store with faults and without
other writers. It consults the change a bounded number of times, each time on the object that is
stored, and either writes what it was told last or leaves every object as it is. -/
namespace TenantOperator
open Program Store

namespace Upsert
variable {σ : Type} {k : Kind} {key : Key} {change : Change σ k} {n : Nat} {s s' x : Store}
  {st st' : σ} {result : Except Error WriteOutcome}

/-- A call of the change: what it was given, and its answer. -/
structure Consultation (k : Kind) where
  given : Option (Resource k)
  answer : Except Error (Option (Resource k))

variable {calls : List (Consultation k)}

/-- The change with a record of its calls. -/
def recorded (change : Change σ k) : Change (σ × List (Consultation k)) k :=
  fun (st, calls) given =>
    let (answer, st) := change st given
    (answer, st, calls ++ [⟨given, answer⟩])

/-- At most `n` rounds from `st` and `s` on: the calls of the change, the result, and the state and
the store that are left. One constructor for each way in which a round ends. -/
inductive Course (key : Key) (change : Change σ k) :
    Nat → σ → Store → List (Consultation k) → Except Error WriteOutcome → σ → Store → Prop
  | spent (st : σ) (s : Store) :
      Course key change 0 st s [] (.error (.conflict k.name key.text)) st s
  | unread {n : Nat} {s s' : Store} {e : Error} (st : σ)
      (hg : s.perform (.get k key) = (.error e, s')) :
      Course key change (n + 1) st s [] (.error e) st s'
  | refused {n : Nat} {st st' : σ} {s : Store} {current : Option (Resource k)} {e : Error}
      (hg : s.perform (.get k key) = (.ok current, s))
      (hc : change st current = (.error e, st')) :
      Course key change (n + 1) st s [⟨current, .error e⟩] (.error e) st' s
  | idle {n : Nat} {st st' : σ} {s : Store} {current : Option (Resource k)}
      (hg : s.perform (.get k key) = (.ok current, s))
      (hc : change st current = (.ok none, st')) :
      Course key change (n + 1) st s [⟨current, .ok none⟩] (.ok .unchanged) st' s
  | written {n : Nat} {st st' : σ} {s s' : Store} {current : Option (Resource k)}
      {r : Resource k} {o : WriteOutcome}
      (hg : s.perform (.get k key) = (.ok current, s))
      (hc : change st current = (.ok (some r), st'))
      (hw : (write current r).run s = (.ok o, s')) :
      Course key change (n + 1) st s [⟨current, .ok (some r)⟩] (.ok o) st' s'
  | failed {n : Nat} {st st' : σ} {s s' : Store} {current : Option (Resource k)}
      {r : Resource k} {e : Error}
      (hg : s.perform (.get k key) = (.ok current, s))
      (hc : change st current = (.ok (some r), st'))
      (hw : (write current r).run s = (.error e, s')) (hl : lost current e = false) :
      Course key change (n + 1) st s [⟨current, .ok (some r)⟩] (.error e) st' s'
  | again {n : Nat} {st st₁ st' : σ} {s s₁ s' : Store} {current : Option (Resource k)}
      {r : Resource k} {e : Error} {calls : List (Consultation k)}
      {result : Except Error WriteOutcome}
      (hg : s.perform (.get k key) = (.ok current, s))
      (hc : change st current = (.ok (some r), st₁))
      (hw : (write current r).run s = (.error e, s₁)) (hl : lost current e)
      (next : Course key change n st₁ s₁ calls result st' s') :
      Course key change (n + 1) st s (⟨current, .ok (some r)⟩ :: calls) result st' s'

theorem perform_get_ok {current : Option (Resource k)}
    (h : s.perform (.get k key) = (.ok current, s')) : s.find? k key = current ∧ s' = s :=
  run_get_ok h

theorem exists_course (key : Key) (change : Change σ k) (n : Nat) (st : σ) (s : Store) :
    ∃ calls result st' s', Course key change n st s calls result st' s' := by
  induction n generalizing st s with
  | zero => exact ⟨_, _, _, _, .spent st s⟩
  | succ n ih =>
    rcases hg : s.perform (.get k key) with ⟨e | current, s₁⟩
    · exact ⟨_, _, _, _, .unread st hg⟩
    · obtain ⟨-, rfl⟩ := perform_get_ok hg
      rcases hc : change st current with ⟨e | ⟨_ | r⟩, st₁⟩
      · exact ⟨_, _, _, _, .refused hg hc⟩
      · exact ⟨_, _, _, _, .idle hg hc⟩
      · rcases hw : (write current r).run s₁ with ⟨e | o, s₂⟩
        · cases hl : lost current e with
          | false => exact ⟨_, _, _, _, .failed hg hc hw hl⟩
          | true =>
            obtain ⟨calls, result, st', s', next⟩ := ih st₁ s₂
            exact ⟨_, _, _, _, .again hg hc hw hl next⟩
        · exact ⟨_, _, _, _, .written hg hc hw⟩

/-- One round of the program; another one follows where the write was lost. -/
theorem run_rounds_succ (key : Key) (change : Change σ k) (n : Nat) (st : σ) (s : Store) :
    (rounds key change (n + 1) st).run s =
      match s.perform (.get k key) with
      | (.error e, s) => (.ok (.error e, st), s)
      | (.ok current, s) =>
        match change st current with
        | (.error e, st) => (.ok (.error e, st), s)
        | (.ok none, st) => (.ok (.ok .unchanged, st), s)
        | (.ok (some r), st) =>
          match (write current r).run s with
          | (.ok o, s) => (.ok (.ok o, st), s)
          | (.error e, s) =>
            if lost current e then (rounds key change n st).run s else (.ok (.error e, st), s) := by
  rw [rounds, run_bind, run_attempt, Program.get, run_perform]
  rcases s.perform (.get k key) with ⟨e | current, s⟩
  · rfl
  · dsimp only
    rcases change st current with ⟨e | ⟨_ | r⟩, st⟩
    · rfl
    · rfl
    · dsimp only
      rw [run_bind, run_attempt]
      rcases (write current r).run s with ⟨e | o, s⟩
      · dsimp only
        split <;> rfl
      · rfl

namespace Course

theorem run (h : Course key change n st s calls result st' s') :
    (rounds key change n st).run s = (.ok (result, st'), s') := by
  induction h with
  | spent st s => rfl
  | unread st hg => rw [run_rounds_succ, hg]
  | refused hg hc => simp only [run_rounds_succ, hg, hc]
  | idle hg hc => simp only [run_rounds_succ, hg, hc]
  | written hg hc hw => simp only [run_rounds_succ, hg, hc, hw]
  | failed hg hc hw hl => simp [run_rounds_succ, hg, hc, hw, hl]
  | again hg hc hw hl _ ih => simpa [run_rounds_succ, hg, hc, hw, hl] using ih

theorem recorded (h : Course key change n st s calls result st' s')
    (before : List (Consultation k)) :
    ∃ calls', Course key (Upsert.recorded change) n (st, before) s calls' result
      (st', before ++ calls) s' := by
  induction h generalizing before with
  | spent st s => exact ⟨_, by simpa using spent (st, before) s⟩
  | unread st hg => exact ⟨_, by simpa using unread (st, before) hg⟩
  | refused hg hc => exact ⟨_, .refused hg (by simp [Upsert.recorded, hc])⟩
  | idle hg hc => exact ⟨_, .idle hg (by simp [Upsert.recorded, hc])⟩
  | written hg hc hw => exact ⟨_, .written hg (by simp [Upsert.recorded, hc]) hw⟩
  | failed hg hc hw hl => exact ⟨_, .failed hg (by simp [Upsert.recorded, hc]) hw hl⟩
  | @again n st st₁ st' s s₁ s' current r e calls result hg hc hw hl _ ih =>
    obtain ⟨calls', next⟩ := ih (before ++ [⟨current, .ok (some r)⟩])
    rw [List.append_assoc] at next
    exact ⟨_, .again hg (by simp [Upsert.recorded, hc]) hw hl next⟩

theorem length_le (h : Course key change n st s calls result st' s') : calls.length ≤ n := by
  induction h with
  | spent st s => exact Nat.le_refl 0
  | unread st hg => exact Nat.zero_le _
  | refused | idle | written | failed => exact Nat.succ_pos _
  | again hg hc hw hl _ ih => exact Nat.succ_le_succ ih

end Course

theorem passes_attempt {α : Type} {p : Program α} : p.attempt.Passes s x ↔ p.Passes s x := by
  induction p generalizing s with
  | done r => rfl
  | call c next ih => exact or_congr_right (ih _)

/-- The change keeps what it answers at the key. -/
def KeepsKey (key : Key) (change : Change σ k) : Prop :=
  ∀ ⦃st current r st'⦄, change st current = (.ok (some r), st') → r.key = key

theorem run_write_cases (s : Store) (r : Resource k) :
    (∃ e l, (write (s.find? k r.key) r).run s = (.error e, { s with faults := l })) ∨
    (write (s.find? k r.key) r).run s =
      (.ok (if (s.find? k r.key).isSome then .updated else .created), s.put r.key r) := by
  cases hf : s.find? k r.key with
  | none =>
    rw [write, run_bind, Program.create, run_perform]
    rcases s.perform_create_cases r with ⟨e, l, h⟩ | ⟨-, h⟩ <;> rw [h]
    · exact .inl ⟨e, l, rfl⟩
    · exact .inr rfl
  | some current =>
    rw [write, run_bind, Program.update, run_perform]
    rcases s.perform_update_cases (r.withVersion current.metadata.resourceVersion) with
      ⟨e, l, h⟩ | ⟨-, h⟩ <;> rw [h]
    · exact .inl ⟨e, l, rfl⟩
    · exact .inr rfl

section round
variable {current : Option (Resource k)} {r : Resource k} {e : Error} {o : WriteOutcome}
  (hg : s.perform (.get k key) = (.ok current, s)) (hr : r.key = key)
include hg hr

theorem exists_faults_of_write_error (hw : (write current r).run s = (.error e, s')) :
    ∃ l, s' = { s with faults := l } := by
  obtain ⟨rfl, -⟩ := perform_get_ok hg
  cases hr
  rcases run_write_cases s r with ⟨e', l, h⟩ | h <;> rw [h] at hw <;> cases hw
  exact ⟨l, rfl⟩

theorem write_ok (hw : (write current r).run s = (.ok o, s')) :
    o = (if (s.find? k key).isSome then .updated else .created) ∧ s' = s.put key r := by
  obtain ⟨rfl, -⟩ := perform_get_ok hg
  cases hr
  rcases run_write_cases s r with ⟨e', l, h⟩ | h <;> rw [h] at hw <;> cases hw
  exact ⟨rfl, rfl⟩

end round

theorem exists_write_eq (current : Option (Resource k)) (r : Resource k) :
    ∃ c, ∃ o : WriteOutcome, write current r = perform c >>= fun _ => pure o := by
  cases current with
  | none => exact ⟨.create k r, .created, rfl⟩
  | some current =>
    exact ⟨.update k (r.withVersion current.metadata.resourceVersion), .updated, rfl⟩

theorem passes_write {current : Option (Resource k)} {r : Resource k}
    (hx : (write current r).Passes s x) : x = s ∨ x = ((write current r).run s).2 := by
  obtain ⟨c, o, hw⟩ := exists_write_eq current r
  rw [hw] at hx ⊢
  rw [run_bind, run_perform]
  rcases passes_bind.1 hx with hx | ⟨a, s₁, hrun, hx⟩
  · rcases hx with rfl | hx
    · exact .inl rfl
    · rw [show x = (s.perform c).2 from hx]
      rcases s.perform c with ⟨e | a, s₁⟩ <;> exact .inr rfl
  · rw [run_perform] at hrun
    rw [hrun]
    exact .inr hx

theorem passes_rounds_succ {current : Option (Resource k)}
    (hg : s.perform (.get k key) = (.ok current, s))
    (hx : (rounds key change (n + 1) st).Passes s x) :
    x = s ∨ ∃ r st₁, change st current = (.ok (some r), st₁) ∧
      (x = ((write current r).run s).2 ∨ ∃ e s₁, (write current r).run s = (.error e, s₁) ∧
        lost current e ∧ (rounds key change n st₁).Passes s₁ x) := by
  rw [rounds] at hx
  rcases passes_bind.1 hx with hx | ⟨a, s₁, hrun, hx⟩
  · rcases passes_attempt.1 hx with rfl | hx
    · exact .inl rfl
    · rw [hg] at hx
      exact .inl hx
  · rw [run_attempt, Program.get, run_perform, hg] at hrun
    cases hrun
    rcases hc : change st current with ⟨e | ⟨_ | r⟩, st₁⟩ <;> simp only [hc] at hx
    · exact .inl hx
    · exact .inl hx
    · rcases passes_bind.1 hx with hx | ⟨a, s₂, hrun, hx⟩
      · rcases passes_write (passes_attempt.1 hx) with rfl | hx
        · exact .inl rfl
        · exact .inr ⟨r, st₁, rfl, .inl hx⟩
      · rw [run_attempt] at hrun
        refine .inr ⟨r, st₁, rfl, ?_⟩
        rcases hw : (write current r).run s with ⟨e | o, s₃⟩ <;> rw [hw] at hrun <;> cases hrun
        · dsimp only at hx
          by_cases hl : lost current e
          · rw [if_pos hl] at hx
            exact .inr ⟨e, _, rfl, hl, hx⟩
          · rw [if_neg hl] at hx
            exact .inl hx
        · exact .inl hx

/-- What becomes of the store: its objects are as they were, or the last answer was written. -/
inductive Ends (s : Store) (key : Key) (calls : List (Consultation k)) :
    Except Error WriteOutcome → Store → Prop
  | kept (l : List PendingFault) {result : Except Error WriteOutcome}
      (hr : ∀ o, result = .ok o → o = .unchanged) : Ends s key calls result { s with faults := l }
  | wrote (l : List PendingFault) {r : Resource k}
      (hr : calls.getLast? = some ⟨s.find? k key, .ok (some r)⟩) :
      Ends s key calls (.ok (if (s.find? k key).isSome then .updated else .created))
        (({ s with faults := l } : Store).put key r)

namespace Course

theorem given (h : Course key change n st s calls result st' s') (hk : KeepsKey key change) :
    ∀ c ∈ calls, c.given = s.find? k key := by
  induction h with
  | spent st s => simp
  | unread st hg => simp
  | refused hg hc | idle hg hc | written hg hc _ | failed hg hc _ _ =>
    simp [(perform_get_ok hg).1]
  | again hg hc hw hl _ ih =>
    obtain ⟨l, rfl⟩ := exists_faults_of_write_error hg (hk hc) hw
    simpa [(perform_get_ok hg).1] using ih

theorem ends (h : Course key change n st s calls result st' s') (hk : KeepsKey key change) :
    Ends s key calls result s' := by
  induction h with
  | spent st s => exact .kept s.faults nofun
  | @unread n s s' e st hg =>
    rcases s.perform_eq (.get k key) with h | ⟨p, l, h⟩ <;> rw [h] at hg <;> cases hg
    exact .kept l nofun
  | @refused n st st' s current e hg hc => exact .kept s.faults nofun
  | @idle n st st' s current hg hc => exact .kept s.faults fun o ho => (Except.ok.inj ho).symm
  | @written n st st' s s' current r o hg hc hw =>
    obtain ⟨rfl, rfl⟩ := write_ok hg (hk hc) hw
    exact .wrote s.faults (by rw [(perform_get_ok hg).1]; rfl)
  | @failed n st st' s s' current r e hg hc hw hl =>
    obtain ⟨l, rfl⟩ := exists_faults_of_write_error hg (hk hc) hw
    exact .kept l nofun
  | @again n st st₁ st' s s₁ s' current r e calls result hg hc hw hl next ih =>
    obtain ⟨l, rfl⟩ := exists_faults_of_write_error hg (hk hc) hw
    cases ih with
    | kept l' hr => exact .kept l' hr
    | wrote l' hr =>
      rw [find?_setFaults] at hr ⊢
      refine .wrote l' ?_
      rw [List.getLast?_cons, hr]
      rfl

theorem passes (h : Course key change n st s calls result st' s') (hk : KeepsKey key change)
    (hx : (rounds key change n st).Passes s x) : (∃ l, x = { s with faults := l }) ∨ x = s' := by
  induction h with
  | spent st s => exact .inr hx
  | @unread n s s' e st hg =>
    rw [rounds] at hx
    rcases passes_bind.1 hx with hx | ⟨a, s₁, hrun, hx⟩
    · rcases passes_attempt.1 hx with rfl | hx
      · exact .inl ⟨x.faults, rfl⟩
      · rw [hg] at hx
        exact .inr hx
    · rw [run_attempt, Program.get, run_perform, hg] at hrun
      cases hrun
      exact .inr hx
  | refused hg hc | idle hg hc =>
    rcases passes_rounds_succ hg hx with rfl | ⟨r, st₁, hr, -⟩
    · exact .inr rfl
    · cases hc.symm.trans hr
  | @written n st st' s s' current r o hg hc hw =>
    rcases passes_rounds_succ hg hx with rfl | ⟨r', st₁, hr, hx⟩
    · exact .inl ⟨x.faults, rfl⟩
    · cases hc.symm.trans hr
      rw [hw] at hx
      rcases hx with hx | ⟨e, s₁, he, -⟩
      · exact .inr hx
      · cases he
  | @failed n st st' s s' current r e hg hc hw hl =>
    rcases passes_rounds_succ hg hx with rfl | ⟨r', st₁, hr, hx⟩
    · exact .inl ⟨x.faults, rfl⟩
    · cases hc.symm.trans hr
      rw [hw] at hx
      rcases hx with hx | ⟨e', s₁, he, hl', -⟩
      · exact .inr hx
      · cases he
        rw [hl] at hl'
        cases hl'
  | @again n st st₁ st' s s₁ s' current r e calls result hg hc hw hl next ih =>
    obtain ⟨l, rfl⟩ := exists_faults_of_write_error hg (hk hc) hw
    rcases passes_rounds_succ hg hx with rfl | ⟨r', st₁, hr, hx⟩
    · exact .inl ⟨x.faults, rfl⟩
    · cases hc.symm.trans hr
      rw [hw] at hx
      rcases hx with hx | ⟨e', s₁, he, -, hx⟩
      · exact .inl ⟨l, hx⟩
      · cases he
        exact ih hx

end Course

/-- The change has something to write whatever it is given. -/
def Insists (change : Change σ k) : Prop :=
  ∀ st current, ∃ r st', change st current = (.ok (some r), st')

/-- Nothing is to be met but conflicts with updates of the kind, so many of them. -/
def Contended (s : Store) (k : Kind) (count : Nat) : Prop :=
  s.faults = List.replicate count ⟨k, .update, .conflict⟩

theorem Contended.get {count : Nat} (hs : Contended s k count) (key : Key) :
    s.perform (.get k key) = (.ok (s.find? k key), s) := by
  have hnone : s.takeFault k .get = none := by
    rw [takeFault, hs, List.find?_eq_none.2 fun p hp => ?_]
    · rfl
    · rw [List.eq_of_mem_replicate hp]
      simp
  rw [Store.perform, show s.takeFault (Call.get k key).kind (Call.get k key).verb = none from hnone]
  rfl

/-- A write over an object goes through where no conflict is left; otherwise it takes one out and
calls for another round. -/
theorem Contended.write_cases {count : Nat} (hs : Contended s k count) {r : Resource k}
    (hf : (s.find? k r.key).isSome) :
    count = 0 ∧ (write (s.find? k r.key) r).run s = (.ok .updated, s.put r.key r) ∨
    ∃ m e, count = m + 1 ∧ lost (s.find? k r.key) e ∧ (write (s.find? k r.key) r).run s =
      (.error e, { s with faults := List.replicate m ⟨k, .update, .conflict⟩ }) := by
  obtain ⟨c, hc⟩ := Option.isSome_iff_exists.1 hf
  rw [hc, write, run_bind, Program.update, run_perform, Store.perform]
  cases count with
  | zero =>
    have hnone : s.takeFault k .update = none := by simp [takeFault, show s.faults = _ from hs]
    left
    simp only [Call.kind, Call.verb, hnone]
    rw [Store.answer, update_of_found (r := r.withVersion c.metadata.resourceVersion) hc rfl]
    exact ⟨trivial, rfl⟩
  | succ m =>
    have hfault : s.takeFault k .update = some (⟨k, .update, .conflict⟩,
        { s with faults := List.replicate m ⟨k, .update, .conflict⟩ }) := by
      simp [takeFault, show s.faults = _ from hs, List.replicate_succ]
    right
    simp only [Call.kind, Call.verb, hfault]
    exact ⟨m, _, rfl, rfl, rfl⟩

theorem Course.contended (h : Course key change n st s calls result st' s')
    (hk : KeepsKey key change) (hc : Insists change) (hf : (s.find? k key).isSome) {count : Nat}
    (hs : Contended s k count) :
    calls.length = min (count + 1) n ∧
      result = if count < n then .ok .updated else .error (.conflict k.name key.text) := by
  induction h generalizing count with
  | spent st s => exact ⟨by simp, rfl⟩
  | unread st hg => cases (hs.get key).symm.trans hg
  | refused hg hr | idle hg hr =>
    obtain ⟨r, st', h⟩ := hc _ _
    cases hr.symm.trans h
  | @written n st st' s s' current r o hg hr hw =>
    obtain ⟨rfl, -⟩ := perform_get_ok hg
    cases hk hr
    rcases hs.write_cases hf with ⟨rfl, h⟩ | ⟨m, e, rfl, -, h⟩ <;> cases h.symm.trans hw
    simp
  | @failed n st st' s s' current r e hg hr hw hl =>
    obtain ⟨rfl, -⟩ := perform_get_ok hg
    cases hk hr
    rcases hs.write_cases hf with ⟨rfl, h⟩ | ⟨m, e, rfl, hl', h⟩ <;> cases h.symm.trans hw
    cases hl.symm.trans hl'
  | @again n st st₁ st' s s₁ s' current r e calls result hg hr hw hl next ih =>
    obtain ⟨rfl, -⟩ := perform_get_ok hg
    cases hk hr
    rcases hs.write_cases hf with ⟨rfl, h⟩ | ⟨m, e, rfl, -, h⟩ <;> cases h.symm.trans hw
    obtain ⟨hlen, hres⟩ := ih (by rwa [find?_setFaults]) rfl
    refine ⟨?_, ?_⟩
    · rw [List.length_cons, hlen]
      omega
    · rw [hres]
      simp only [Nat.succ_lt_succ_iff]

/-- What an upsert that ends with `result` and leaves `s'` did on `s`, with `calls` the calls of its
change. -/
structure Atomic (s : Store) (key : Key) (attempts : Nat) (change : Change σ k) (st : σ)
    (calls : List (Consultation k)) (result : Except Error WriteOutcome) (s' : Store) : Prop where
  calls_le : calls.length ≤ max attempts 1
  given : ∀ c ∈ calls, c.given = s.find? k key
  /-- Up to its end the objects are those that the change was given. -/
  steady : ∀ x, (upsertWith key attempts change st).Passes s x →
    (∀ l key', x.find? l key' = s.find? l key') ∨ x = s'
  created : result = .ok .created → s.find? k key = none
  updated : result = .ok .updated → (s.find? k key).isSome
  not_deleted : result ≠ .ok .deleted
  /-- What was written is the last answer, with a version that no object has. -/
  wrote : result = .ok .created ∨ result = .ok .updated → ∃ r v,
    calls.getLast? = some ⟨s.find? k key, .ok (some r)⟩ ∧
    s'.find? k key = some (r.withVersion (some v)) ∧
    (∀ l key' (x : Resource l), s.find? l key' = some x → x.metadata.resourceVersion ≠ some v) ∧
    AgreeOff (fun l key' => l = k ∧ key' = key) s s'
  kept : (result = .ok .unchanged ∨ ∃ e, result = .error e) →
    ∀ l key', s'.find? l key' = s.find? l key'
  contended : Insists change → (s.find? k key).isSome → ∀ count, Contended s k count →
    calls.length = min (count + 1) (max attempts 1) ∧
    result = if count < max attempts 1 then .ok .updated else .error (.conflict k.name key.text)

theorem Course.atomic (hs : s.Reached) (hk : KeepsKey key change) {attempts : Nat}
    (h : Course key change (max attempts 1) st s calls result st' s') :
    Atomic s key attempts change st calls result s' where
  calls_le := h.length_le
  given := h.given hk
  steady x hx := by
    rcases h.passes hk hx with ⟨l, rfl⟩ | rfl
    · exact .inl fun l key' => find?_setFaults ..
    · exact .inr rfl
  created hr := by
    rcases h.ends hk with ⟨l, hkept⟩ | ⟨l, hlast⟩
    · cases hkept _ hr
    · cases hf : s.find? k key with
      | none => rfl
      | some c => simp [hf] at hr
  updated hr := by
    rcases h.ends hk with ⟨l, hkept⟩ | ⟨l, hlast⟩
    · cases hkept _ hr
    · cases hf : s.find? k key with
      | none => simp [hf] at hr
      | some c => rfl
  not_deleted hr := by
    rcases h.ends hk with ⟨l, hkept⟩ | ⟨l, hlast⟩
    · cases hkept _ hr
    · cases hf : s.find? k key <;> simp [hf] at hr
  wrote hr := by
    rcases h.ends hk with ⟨l, hkept⟩ | @⟨l, r, hlast⟩
    · rcases hr with hr | hr <;> cases hkept _ hr
    · refine ⟨r, _, hlast, find?_put_self .., fun l' key' x hx => hs.sound.version_ne hx, ?_⟩
      exact fun l' key' hne => (find?_put_of_ne _ hne r).trans (find?_setFaults ..)
  kept hr := by
    rcases h.ends hk with ⟨l, hkept⟩ | ⟨l, hlast⟩
    · exact fun l' key' => find?_setFaults ..
    · cases hf : s.find? k key <;> simp [hf] at hr
  contended hc hf _ hcount := h.contended hk hc hf hcount

/-- Whatever faults are queued, an upsert reads, changes and writes in one, and gives up after a
bounded number of rounds. Its change may keep a state. -/
theorem atomic_upsertWith (hs : s.Reached) (attempts : Nat) (hk : KeepsKey key change) (st : σ) :
    ∃ result st' calls s',
      (upsertWith key attempts change st).run s = (.ok (result, st'), s') ∧
      (upsertWith key attempts (recorded change) (st, [])).run s =
        (.ok (result, st', calls), s') ∧
      Atomic s key attempts change st calls result s' := by
  obtain ⟨calls, result, st', s', h⟩ := exists_course key change (max attempts 1) st s
  obtain ⟨calls', hrec⟩ := h.recorded []
  exact ⟨result, st', calls, s', h.run, hrec.run, h.atomic hs hk⟩

section rewritten

def numbered : Change Nat .tenant := fun n _ =>
  (.ok (some { someTenant with content := { name := toString n } }), n + 1)

theorem keepsKey_numbered : KeepsKey someTenant.key numbered := by
  rintro n current r n' h
  cases h
  rfl

def rewritten : Store := after [.call (.create .tenant someTenant), .injectConflicts .tenant 2]

theorem atomic_rewritten :
    rewritten.Reached ∧ KeepsKey someTenant.key numbered ∧
    ∃ result n calls s',
      (upsertWith someTenant.key 3 numbered 0).run rewritten = (.ok (result, n), s') ∧
      (upsertWith someTenant.key 3 (recorded numbered) (0, [])).run rewritten =
        (.ok (result, n, calls), s') ∧
      Atomic rewritten someTenant.key 3 numbered 0 calls result s' :=
  have hs := reached_after _
  ⟨hs, keepsKey_numbered, atomic_upsertWith hs 3 keepsKey_numbered 0⟩

/-- The third round writes what the third call answered. -/
example : ((upsertWith someTenant.key 3 numbered 0).run rewritten).1 = .ok (.ok .updated, 3) ∧
    (((upsertWith someTenant.key 3 numbered 0).run rewritten).2.find? .tenant someTenant.key).map
      (·.content.name) = some "2" := ⟨rfl, rfl⟩

end rewritten

end Upsert
end TenantOperator
