import Mathlib.Algebra.BigOperators.Group.Finset.Piecewise
import TenantOperator.Proofs.Frame.Spans
import TenantOperator.Proofs.Interleaving.Log
import TenantOperator.Tenancy.Matrix

/-! Runs that only make new objects. Each of their writes fills a slot that was empty, so a slot is
filled at most once, and what they report of their work can be summed up. -/
namespace TenantOperator
open Program Store

def Store.count (s : Store) (k : Kind) : Nat := (s.table k).size

theorem Store.count_congr {s s' : Store} {k : Kind} (h : ∀ key, s'.find? k key = s.find? k key) :
    s'.count k = s.count k :=
  congrArg SortedMap.size (SortedMap.ext_find? h)

theorem Store.count_put {s : Store} {k : Kind} {key : Key} (h : s.find? k key = none)
    (r : Resource k) : (s.put key r).count k = s.count k + 1 := by
  have htable : (s.put key r).table k =
      (s.table k).insert key (r.withVersion (some (toString (s.version + 1)))) :=
    table_setTable_self ..
  rw [count, htable]
  exact SortedMap.size_insert_of_find?_eq_none h _

namespace Program
variable {α β : Type} {g : α → Nat}

/-- With `n` writes done before, every result tells by `g` how many writes were done. -/
def Tallies (g : α → Nat) : Program α → Nat → Prop
  | .done (.ok a), n => g a = n
  | .done (.error _), _ => True
  | .call c next, n => ∀ a, c.Admits a → (next a).Tallies g (n + (c.wrote? a).toList.length)

theorem tallies_bind {f : α → Program β} {g' : β → Nat} {p : Program α} {n : Nat}
    (hp : p.Tallies g n) (hf : ∀ a, (f a).Tallies g' (g a)) : (p >>= f).Tallies g' n := by
  induction p generalizing n with
  | done r =>
    cases r with
    | ok a => exact hp ▸ hf a
    | error e => trivial
  | call c next ih => exact fun a ha => ih a (hp a ha)

theorem tallies_of_reads {p : Program α} (h : p.Every Call.Reads) (n : Nat) :
    p.Tallies (fun _ => n) n := by
  induction p with
  | done r => cases r <;> trivial
  | call c next ih =>
    intro a ha
    rw [Call.wrote?_of_reads h.1]
    exact ih a (h.2 a ha)

theorem tallies_ensureCreated {k : Kind} (r : Resource k) (n : Nat) :
    (ensureCreated r).Tallies (fun made => n + if made then 1 else 0) n := by
  intro a _
  cases a with
  | ok a => rfl
  | error e =>
    show (if e.isAlreadyExists then pure false else fail e : Program Bool).Tallies _ _
    split
    · rfl
    · trivial

variable {R G T : Store → Store → Prop} {k : Kind} {s : Store}

theorem waits_ensureCreated (h : Around R G T) {r : Resource k} {n : String}
    (hn : r.metadata.name = some n)
    (hG : ∀ s', T s s' → s'.find? k r.key = none → G s' (s'.put r.key r)) :
    (ensureCreated r).Waits R G (fun _ s' => T s s' ∧ (s'.find? k r.key).isSome) s := by
  intro s' _ hr
  have hT := h.others hr
  rcases s'.perform_eq (.create k r) with he | ⟨p, l, he⟩ <;> rw [he]
  · simp only [answer, create_of_named hn]
    by_cases hsome : (s'.find? k r.key).isSome
    · rw [if_pos hsome]
      exact ⟨h.faults s' s'.faults, hT, hsome⟩
    · rw [if_neg hsome]
      have hput := hG s' hT (by simpa using hsome)
      exact ⟨hput, h.total.trans hT (h.own hput), by simp⟩
  · refine ⟨h.faults s' l, ?_⟩
    show Waits R G _ (if p.error.isAlreadyExists then pure false else fail p.error) _
    rw [isAlreadyExists_fault]
    exact waits_fail _

end Program

theorem Matrix.tallies_pairAll (ns tenant : String) (ms : List Microservice) (n : Nat) :
    (pairAll ns tenant ms).Tallies (n + ·) n := by
  induction ms generalizing n with
  | nil => rfl
  | cons m ms ih =>
    have htemplate : (templateConfiguration m).Every Call.Reads :=
      every_bind (reads_getRequired ..) fun _ => trivial
    refine tallies_bind (tallies_of_reads htemplate n) fun c =>
      tallies_bind (tallies_ensureCreated _ n) fun made => tallies_bind (ih _) fun rest => ?_
    show n + ((if made then 1 else 0) + rest) = n + (if made then 1 else 0) + rest
    omega

theorem Matrix.tallies_resolveTenant (t : Tenant) : (resolveTenant t).Tallies (fun n => n) 0 := by
  unfold resolveTenant
  split
  · trivial
  · rename_i ns _
    refine tallies_bind (tallies_of_reads (reads_list ..) 0) fun ms =>
      tallies_bind (tallies_of_reads (reads_list ..) 0) fun ps => ?_
    have htally := tallies_pairAll ns t.name
      (ms.filter fun m => !(ps.map (·.content.microserviceId)).contains m.name) 0
    simpa only [Nat.zero_add] using htally

namespace Pool
variable {ι α : Type} [DecidableEq ι] {P : Pool ι α} {i : ι} {es : List (Event ι)}
  {N : Kind → Key → Prop} {k : Kind}

def share (i : ι) (l : List (ι × Kind × Key)) : Nat := l.countP fun x => decide (x.1 = i)

theorem share_append (i : ι) (l l' : List (ι × Kind × Key)) :
    share i (l ++ l') = share i l + share i l' :=
  List.countP_append

theorem share_of_map (i : ι) (slot : Option (Kind × Key)) :
    share i (slot.map (i, ·)).toList = slot.toList.length := by
  cases slot <;> simp [share]

theorem share_written_of_ne {e : Event ι} (he : e ≠ .run i) : share i (P.written e) = 0 := by
  rw [share, List.countP_eq_zero]
  rintro ⟨j, slot⟩ hmem hj
  obtain rfl : j = i := by simpa using hj
  exact he (eq_of_mem_written hmem)

theorem sum_share [Fintype ι] (l : List (ι × Kind × Key)) : ∑ i, share i l = l.length := by
  induction l with
  | nil => simp [share]
  | cons x l ih =>
    simp only [share, List.countP_cons, Finset.sum_add_distrib, List.length_cons] at ih ⊢
    simp [ih]

theorem tallies_exec {g : α → Nat} (hs : P.store.Filed) {n : Nat} (h : (P.runs i).Tallies g n)
    (es : List (Event ι)) : ((P.exec es).runs i).Tallies g (n + share i (P.log es)) := by
  induction es generalizing P n with
  | nil => exact h
  | cons e es ih =>
    rw [log, share_append, ← Nat.add_assoc]
    refine ih (filed_step hs e) ?_
    by_cases he : e = .run i
    · subst he
      cases hi : P.runs i with
      | done r =>
        rw [step_run_of_done hi, written_of_done hi]
        exact h
      | call c next =>
        rw [runs_step_run_self hi, written_of_call hi, share_of_map]
        rw [hi] at h
        exact h _ (hs.admits c)
    · rw [runs_step_of_ne he, share_written_of_ne he]
      exact h

/-- Every call of a run reads, or makes an object in a slot of `N`. -/
structure Making (N : Kind → Key → Prop) (P : Pool ι α) : Prop where
  filed : P.store.Filed
  runs (i : ι) : (P.runs i).Every (Call.Makes (fun _ _ => False) N)

namespace Making

theorem step (h : P.Making N) (e : Event ι) : (P.step e).Making N :=
  ⟨filed_step h.filed e, fun i => every_exec h.filed (h.runs i) [e]⟩

/-- A turn changes no object and writes nothing, or it fills one slot that was empty. -/
theorem step_run (h : P.Making N) (i : ι) :
    P.written (.run i) = [] ∧ (∀ k key, (P.step (.run i)).store.find? k key = P.store.find? k key) ∨
    ∃ k, ∃ r : Resource k, N k r.key ∧ P.store.find? k r.key = none ∧
      P.written (.run i) = [(i, k, r.key)] ∧ (P.step (.run i)).store = P.store.put r.key r := by
  cases hi : P.runs i with
  | done r =>
    rw [step_run_of_done hi]
    exact Or.inl ⟨written_of_done hi, fun _ _ => rfl⟩
  | call c next =>
    have hc := h.runs i
    rw [hi] at hc
    rw [written_of_call hi, store_step_run hi]
    rcases hc.1 with hread | ⟨k, r, rfl, hN⟩
    · refine Or.inl ⟨?_, fun k key => P.store.find?_perform_of_not_writes (hread k key)⟩
      rw [Call.wrote?_of_reads hread]
      rfl
    · rcases P.store.perform_create_cases r with ⟨e, l, he⟩ | ⟨hnone, he⟩ <;> rw [he]
      · exact Or.inl ⟨rfl, fun k key => find?_setFaults ..⟩
      · exact Or.inr ⟨k, r, hN, hnone, rfl, rfl⟩

/-- A slot is filled by one write, if it was empty. -/
theorem count_slot (h : P.Making N) {key : Key}
    (hcall : ∀ c, .call c ∈ es → ¬c.Writes k key) :
    (P.log es).countP (fun x => decide (x.2 = (k, key))) +
        (P.store.find? k key).toList.length =
      ((P.exec es).store.find? k key).toList.length := by
  induction es generalizing P with
  | nil => simp [log]; rfl
  | cons e es ih =>
    have hrest := ih (h.step e) fun c hc => hcall c (by simp [hc])
    have hexec : P.exec (e :: es) = (P.step e).exec es := rfl
    rw [log, List.countP_append, hexec, ← hrest]
    cases e with
    | call c =>
      have hsame : (P.step (.call c)).store.find? k key = P.store.find? k key :=
        P.store.find?_answer_of_not_writes (hcall c (by simp))
      rw [hsame]
      simp [written]
    | run i =>
      rcases h.step_run i with ⟨hw, hsame⟩ | ⟨l, r, -, hnone, hw, hput⟩
      · rw [hw, hsame]
        simp
      · rw [hw, hput]
        by_cases hk : k = l ∧ key = r.key
        · obtain ⟨rfl, rfl⟩ := hk
          rw [find?_put_self, hnone]
          simp
          omega
        · rw [find?_put_of_ne _ hk]
          have hne : ¬(l = k ∧ r.key = key) := fun he => hk ⟨he.1.symm, he.2.symm⟩
          simp [hne]

theorem find?_kept (h : P.Making N) {key : Key} (hcall : ∀ c, .call c ∈ es → ¬c.Writes k key)
    {a : Resource k} (ha : P.store.find? k key = some a) :
    (P.exec es).store.find? k key = some a := by
  induction es generalizing P with
  | nil => exact ha
  | cons e es ih =>
    refine ih (h.step e) (fun c hc => hcall c (by simp [hc])) ?_
    cases e with
    | call c => exact (P.store.find?_answer_of_not_writes (hcall c (by simp))).trans ha
    | run i =>
      rcases h.step_run i with ⟨-, hsame⟩ | ⟨l, r, -, hnone, -, hput⟩
      · rw [hsame, ha]
      · rw [hput, find?_put_of_ne _ _ r, ha]
        rintro ⟨rfl, rfl⟩
        rw [hnone] at ha
        cases ha

theorem count_eq (h : P.Making N) (hN : ∀ l key, N l key → l = k)
    (hcall : ∀ c, .call c ∈ es → ∀ key, ¬c.Writes k key) :
    (P.exec es).store.count k = P.store.count k + (P.log es).length := by
  induction es generalizing P with
  | nil => rfl
  | cons e es ih =>
    have hrest := ih (h.step e) fun c hc => hcall c (by simp [hc])
    have hexec : P.exec (e :: es) = (P.step e).exec es := rfl
    rw [hexec, hrest, log, List.length_append]
    cases e with
    | call c =>
      have hsame : (P.step (.call c)).store.count k = P.store.count k :=
        count_congr fun key => P.store.find?_answer_of_not_writes (hcall c (by simp) key)
      rw [hsame]
      simp [written]
    | run i =>
      rcases h.step_run i with ⟨hw, hsame⟩ | ⟨l, r, hr, hnone, hw, hput⟩
      · rw [hw, count_congr (hsame k)]
        simp
      · obtain rfl := hN l r.key hr
        rw [hw, hput, count_put hnone]
        simp
        omega

end Making
end Pool
end TenantOperator
