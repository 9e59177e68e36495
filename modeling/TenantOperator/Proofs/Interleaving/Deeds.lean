import Mathlib.Data.List.Induction
import TenantOperator.Proofs.Interleaving.Pool
import TenantOperator.Proofs.Store.Calm

/-! What runs did to slots, as far as they were told, in the order in which it was done. Runs may
fail at any call. Whether a slot that only runs write is filled at the end is told by the last deed
that was done to it. -/
namespace TenantOperator
open Program Store

/-- What the answer to a call tells of a slot. -/
inductive Deed where
  /-- There is an object now, made just now or before. -/
  | filled (k : Kind) (key : Key)
  /-- There is no object now. -/
  | emptied (k : Kind) (key : Key)

def Call.deed? : (c : Call) → Except Error c.Answer → Option Deed
  | .create k r, .ok _ => some (.filled k r.key)
  | .create k r, .error e => if e.isAlreadyExists then some (.filled k r.key) else none
  | .update k r, .ok _ => some (.filled k r.key)
  | .delete k key, .ok _ => some (.emptied k key)
  | _, _ => none

theorem Call.deed?_of_reads {c : Call} (h : c.Reads) (a : Except Error c.Answer) :
    c.deed? a = none := by
  cases c with
  | create k r => exact absurd (Call.writes_create.2 ⟨rfl, rfl⟩) (h k r.key)
  | update k r => exact absurd (Call.writes_update.2 ⟨rfl, rfl⟩) (h k r.key)
  | delete k key => exact absurd (Call.writes_delete.2 ⟨rfl, rfl⟩) (h k key)
  | get k key => rfl
  | list k ns labels => rfl

theorem Call.deed?_error (c : Call) {e : Error} (he : e.isAlreadyExists = false) :
    c.deed? (.error e) = none := by
  cases c <;> simp [deed?, he]

theorem Call.writes_of_deed? {c : Call} {a : Except Error c.Answer} {k : Kind} {key : Key}
    (h : c.deed? a = some (.filled k key) ∨ c.deed? a = some (.emptied k key)) :
    c.Writes k key := by
  cases c with
  | get l key' => simp [deed?] at h
  | list l ns labels => simp [deed?] at h
  | create l r =>
    cases a with
    | ok a => simpa [deed?, writes_create] using h
    | error e =>
      by_cases he : e.isAlreadyExists
      · simpa [deed?, he, writes_create] using h
      · simp [deed?, he] at h
  | update l r => cases a <;> simp [deed?] at h ⊢; exact writes_update.2 h
  | delete l key' => cases a <;> simp [deed?] at h ⊢; exact writes_delete.2 h

namespace Store

/-- The deed of a call, and what becomes of the slot. -/
structure Does (s s' : Store) (d : Option Deed) (k : Kind) (key : Key) : Prop where
  filled : d = some (.filled k key) → (s'.find? k key).isSome
  emptied : d = some (.emptied k key) → s'.find? k key = none
  kept : d ≠ some (.filled k key) → d ≠ some (.emptied k key) →
    ((s'.find? k key).isSome ↔ (s.find? k key).isSome)

theorem Does.refl (s : Store) (k : Kind) (key : Key) : Does s s none k key :=
  ⟨fun h => (by cases h), fun h => (by cases h), fun _ _ => Iff.rfl⟩

theorem does_create (s : Store) {k : Kind} (r : Resource k) :
    Does s (s.create r).2 ((Call.create k r).deed? (s.create r).1) k r.key := by
  cases hn : r.metadata.name with
  | none =>
    have hc : s.create r = (.error (.unnamed k), s) := by simp only [create, hn]
    rw [hc]
    exact ⟨fun h => (by cases h), fun h => (by cases h), fun _ _ => Iff.rfl⟩
  | some n =>
    rw [create_of_named hn]
    split
    · rename_i hsome
      exact ⟨fun _ => hsome, fun h => (by cases h), fun h => absurd rfl h⟩
    · exact ⟨fun _ => by simp, fun h => (by cases h), fun h => absurd rfl h⟩

theorem does_update (s : Store) {k : Kind} (r : Resource k) :
    Does s (s.update r).2 ((Call.update k r).deed? (s.update r).1) k r.key := by
  have hfail (e : Error) : Does s s ((Call.update k r).deed? (.error e)) k r.key :=
    ⟨fun h => (by cases h), fun h => (by cases h), fun _ _ => Iff.rfl⟩
  simp only [update]
  split
  · exact hfail _
  · split
    · exact hfail _
    · have hsome : ((s.put r.key r).find? k r.key).isSome := by simp
      exact ⟨fun _ => hsome, fun h => (by cases h), fun h => absurd rfl h⟩

theorem does_perform (s : Store) (c : Call) (k : Kind) (key : Key) :
    Does s (s.perform c).2 (c.deed? (s.perform c).1) k key := by
  rcases s.perform_eq c with he | ⟨p, l, he⟩ <;> rw [he]
  · by_cases hw : c.Writes k key
    · cases c with
      | get l key' => exact absurd hw (Call.reads_get l key' k key)
      | list l ns labels => exact absurd hw (Call.reads_list l ns labels k key)
      | create l r =>
        obtain ⟨rfl, rfl⟩ := Call.writes_create.1 hw
        exact s.does_create r
      | update l r =>
        obtain ⟨rfl, rfl⟩ := Call.writes_update.1 hw
        exact s.does_update r
      | delete l key' =>
        obtain ⟨rfl, rfl⟩ := Call.writes_delete.1 hw
        exact ⟨fun h => by simp [answer, Call.deed?] at h, fun _ => find?_remove_self ..,
          fun _ h => absurd rfl h⟩
    · refine ⟨fun h => absurd (Call.writes_of_deed? (Or.inl h)) hw,
        fun h => absurd (Call.writes_of_deed? (Or.inr h)) hw, fun _ _ => ?_⟩
      rw [s.find?_answer_of_not_writes hw]
  · rw [c.deed?_error (isAlreadyExists_fault p)]
    exact ⟨fun h => (by cases h), fun h => (by cases h), fun _ _ => by rw [find?_setFaults]⟩

end Store

/-- What happens next: an event, or the next call of a run fails without effect. That an object is
there already is told by the store alone. -/
inductive Happening (ι : Type) where
  | event (e : Event ι)
  | fail (i : ι) (e : Error) (he : e.isAlreadyExists = false)

namespace Pool
variable {ι α : Type} [DecidableEq ι] {P : Pool ι α} {i : ι}

def happen (P : Pool ι α) : Happening ι → Pool ι α
  | .event e => P.step e
  | .fail i e _ =>
    match P.runs i with
    | .done _ => P
    | .call _ next => ⟨P.store, Function.update P.runs i (next (.error e))⟩

/-- What there is after all that happened; a run that gets no more turns was cancelled. -/
def history (P : Pool ι α) (hs : List (Happening ι)) : Pool ι α := hs.foldl happen P

theorem history_concat (hs : List (Happening ι)) (h : Happening ι) :
    P.history (hs ++ [h]) = (P.history hs).happen h :=
  List.foldl_append ..

def done (P : Pool ι α) : Happening ι → List (ι × Deed)
  | .event (.run i) =>
    match P.runs i with
    | .done _ => []
    | .call c _ => ((c.deed? (P.store.perform c).1).map (i, ·)).toList
  | _ => []

def deeds (P : Pool ι α) : List (Happening ι) → List (ι × Deed)
  | [] => []
  | h :: hs => P.done h ++ (P.happen h).deeds hs

theorem deeds_append (P : Pool ι α) (hs hs' : List (Happening ι)) :
    P.deeds (hs ++ hs') = P.deeds hs ++ (P.history hs).deeds hs' := by
  induction hs generalizing P with
  | nil => rfl
  | cons h hs ih => simp only [List.cons_append, deeds, ih, List.append_assoc]; rfl

theorem deeds_concat (P : Pool ι α) (hs : List (Happening ι)) (h : Happening ι) :
    P.deeds (hs ++ [h]) = P.deeds hs ++ (P.history hs).done h := by
  rw [deeds_append, deeds, deeds, List.append_nil]

theorem happen_cases (hs : P.store.Filed) (h : Happening ι) :
    P.done h = [] ∧ (P.happen h).runs = P.runs ∨
    ∃ i c next a, c.Admits a ∧ P.runs i = .call c next ∧
      P.done h = ((c.deed? a).map (i, ·)).toList ∧
      (P.happen h).runs = Function.update P.runs i (next a) := by
  cases h with
  | event e =>
    cases e with
    | call c => exact Or.inl ⟨rfl, rfl⟩
    | run i =>
      cases hi : P.runs i with
      | done r => exact Or.inl ⟨by simp only [done, hi], by rw [happen, step_run_of_done hi]⟩
      | call c next =>
        refine Or.inr ⟨i, c, next, _, hs.admits c, hi, by simp only [done, hi], ?_⟩
        rw [happen, step_run_of_call hi]
  | fail i e he =>
    cases hi : P.runs i with
    | done r => exact Or.inl ⟨rfl, by simp only [happen, hi]⟩
    | call c next =>
      refine Or.inr ⟨i, c, next, .error e, c.admits_error e, hi, ?_, by simp only [happen, hi]⟩
      rw [c.deed?_error he]
      rfl

theorem filed_happen (hs : P.store.Filed) (h : Happening ι) : (P.happen h).store.Filed := by
  cases h with
  | event e => exact filed_step hs e
  | fail i e he =>
    rw [happen]
    split <;> exact hs

variable {k : Kind} {key : Key}

theorem does_happen (h : Happening ι) (hcall : ∀ c, h = .event (.call c) → ¬c.Writes k key) :
    P.done h = [] ∧ Does P.store (P.happen h).store none k key ∨
      ∃ i d, P.done h = [(i, d)] ∧ Does P.store (P.happen h).store (some d) k key := by
  cases h with
  | fail i e he =>
    refine Or.inl ⟨rfl, ?_⟩
    rw [happen]
    split <;> exact Does.refl ..
  | event e =>
    cases e with
    | call c =>
      refine Or.inl ⟨rfl, fun h => (by cases h), fun h => (by cases h), fun _ _ => ?_⟩
      rw [happen, step, P.store.find?_answer_of_not_writes (hcall c rfl)]
    | run i =>
      cases hi : P.runs i with
      | done r =>
        refine Or.inl ⟨by simp only [done, hi], ?_⟩
        rw [happen, step_run_of_done hi]
        exact Does.refl ..
      | call c next =>
        have hdoes := P.store.does_perform c k key
        rw [happen, store_step_run hi]
        simp only [done, hi]
        cases hd : c.deed? (P.store.perform c).1 with
        | none => exact Or.inl ⟨rfl, hd ▸ hdoes⟩
        | some d => exact Or.inr ⟨i, d, rfl, hd ▸ hdoes⟩

/-- A deed is done at some place of a log, and what would undo it is not done after it. -/
def Stands (l : List (ι × Deed)) (n : Nat) (i : ι) (d undo : Deed) : Prop :=
  l[n]? = some (i, d) ∧ ∀ m j, n < m → l[m]? ≠ some (j, undo)

omit [DecidableEq ι] in
theorem Stands.concat {l : List (ι × Deed)} {n : Nat} {d undo : Deed} (h : Stands l n i d undo)
    {x : ι × Deed} (hx : x.2 ≠ undo) : Stands (l ++ [x]) n i d undo := by
  have hn : n < l.length := (List.getElem?_eq_some_iff.1 h.1).1
  refine ⟨by rw [List.getElem?_append_left hn, h.1], fun m j hm => ?_⟩
  rcases Nat.lt_trichotomy m l.length with hlt | rfl | hlt
  · rw [List.getElem?_append_left hlt]
    exact h.2 m j hm
  · rw [List.getElem?_concat_length]
    rintro ⟨⟩
    exact hx rfl
  · rw [List.getElem?_eq_none (by simp; omega)]
    simp

omit [DecidableEq ι] in
theorem stands_concat (l : List (ι × Deed)) (i : ι) (d undo : Deed) :
    Stands (l ++ [(i, d)]) l.length i d undo := by
  refine ⟨List.getElem?_concat_length, fun m j hm => ?_⟩
  rw [List.getElem?_eq_none (by simp; omega)]
  simp

/-- Whether there is an object is told by the last deed to the slot. -/
theorem last_deed (hs : List (Happening ι))
    (hcall : ∀ c, .event (.call c) ∈ hs → ¬c.Writes k key) :
    (∀ x ∈ P.deeds hs, x.2 ≠ .filled k key ∧ x.2 ≠ .emptied k key) ∧
        (((P.history hs).store.find? k key).isSome ↔ (P.store.find? k key).isSome) ∨
    (∃ n i, Stands (P.deeds hs) n i (.filled k key) (.emptied k key)) ∧
        ((P.history hs).store.find? k key).isSome ∨
    (∃ n i, Stands (P.deeds hs) n i (.emptied k key) (.filled k key)) ∧
        (P.history hs).store.find? k key = none := by
  induction hs using List.reverseRecOn with
  | nil => exact Or.inl ⟨fun x hx => (by cases hx), Iff.rfl⟩
  | append_singleton hs h ih =>
    replace ih := ih fun c hc => hcall c (by simp [hc])
    have hlast : ∀ c, h = .event (.call c) → ¬c.Writes k key := fun c hc => hcall c (by simp [hc])
    rw [deeds_concat, history_concat]
    rcases does_happen (P := P.history hs) h hlast with ⟨hd, hdoes⟩ | ⟨i, d, hd, hdoes⟩ <;> rw [hd]
    · rw [List.append_nil]
      have hkept := hdoes.kept nofun nofun
      rwa [hkept, ← Option.not_isSome_iff_eq_none, hkept, Option.not_isSome_iff_eq_none]
    · by_cases hf : d = .filled k key
      · subst hf
        exact Or.inr (Or.inl ⟨⟨_, i, stands_concat ..⟩, hdoes.filled rfl⟩)
      by_cases he : d = .emptied k key
      · subst he
        exact Or.inr (Or.inr ⟨⟨_, i, stands_concat ..⟩, hdoes.emptied rfl⟩)
      have hkept := hdoes.kept (by simpa using hf) (by simpa using he)
      rw [hkept, ← Option.not_isSome_iff_eq_none, hkept, Option.not_isSome_iff_eq_none]
      refine ih.imp ?_ (Or.imp ?_ ?_)
      · rintro ⟨hno, hsame⟩
        refine ⟨fun x hx => ?_, hsame⟩
        rcases List.mem_append.1 hx with hx | hx
        · exact hno x hx
        · obtain rfl := List.mem_singleton.1 hx
          exact ⟨hf, he⟩
      · rintro ⟨⟨n, j, hn⟩, hsome⟩
        exact ⟨⟨n, j, hn.concat he⟩, hsome⟩
      · rintro ⟨⟨n, j, hn⟩, hnone⟩
        exact ⟨⟨n, j, hn.concat hf⟩, hnone⟩

end Pool

namespace Program
variable {α β : Type} {F : List Deed → Deed → Prop} {Q : α → List Deed → Prop}
  {R : β → List Deed → Prop} {past : List Deed}

/-- With `past` done before, the program does a deed only when `F` allows it after those done so
far, and every result comes with deeds that `Q` tells of. -/
def Heeds (F : List Deed → Deed → Prop) (Q : α → List Deed → Prop) :
    Program α → List Deed → Prop
  | .done (.ok a), past => Q a past
  | .done (.error _), _ => True
  | .call c next, past => ∀ a, c.Admits a →
      (∀ d, c.deed? a = some d → F past d) ∧ (next a).Heeds F Q (past ++ (c.deed? a).toList)

theorem heeds_done (r : Except Error α) : Heeds F (fun _ past' => past' = past) (.done r) past := by
  cases r <;> trivial

theorem heeds_bind {p : Program α} {f : α → Program β} (hp : p.Heeds F Q past)
    (hf : ∀ a past', Q a past' → (f a).Heeds F R past') : (p >>= f).Heeds F R past := by
  induction p generalizing past with
  | done r =>
    cases r with
    | ok a => exact hf a past hp
    | error e => trivial
  | call c next ih => exact fun a ha => ⟨(hp a ha).1, ih a (hp a ha).2⟩

theorem heeds_of_reads {p : Program α} (h : p.Every Call.Reads) :
    p.Heeds F (fun _ past' => past' = past) past := by
  induction p with
  | done r => exact heeds_done r
  | call c next ih =>
    intro a ha
    rw [Call.deed?_of_reads h.1]
    exact ⟨fun d hd => (by cases hd), by simpa using ih a (h.2 a ha)⟩

theorem heeds_of_every {p : Program α} {G : Call → Prop} (h : p.Every G)
    (hG : ∀ c, G c → ∀ a d past', c.deed? a = some d → F past' d) :
    p.Heeds F (fun _ _ => True) past := by
  induction p generalizing past with
  | done r => cases r <;> trivial
  | call c next ih => exact fun a ha => ⟨fun d => hG c h.1 a d past, ih a (h.2 a ha)⟩

theorem heeds_ensureCreated {k : Kind} (r : Resource k) (h : F past (.filled k r.key)) :
    (ensureCreated r).Heeds F (fun _ past' => past' = past ++ [.filled k r.key]) past := by
  intro a _
  cases a with
  | ok a =>
    refine ⟨fun d hd => ?_, rfl⟩
    cases hd
    exact h
  | error e =>
    by_cases he : e.isAlreadyExists
    · have hdeed : (Call.create k r).deed? (.error e) = some (.filled k r.key) := by
        simp [Call.deed?, he]
      rw [hdeed]
      refine ⟨fun d hd => ?_, ?_⟩
      · cases hd
        exact h
      · show Heeds F _ (if e.isAlreadyExists then pure false else fail e) _
        rw [if_pos he]
        rfl
    · refine ⟨fun d hd => ?_, ?_⟩
      · rw [Call.deed?_error _ (by simpa using he)] at hd
        cases hd
      · show Heeds F _ (if e.isAlreadyExists then pure false else fail e) _
        rw [if_neg he]
        trivial

theorem heeds_delete (k : Kind) (key : Key) (h : F past (.emptied k key)) :
    (Program.delete k key).Heeds F (fun _ past' => past' = past ++ [.emptied k key]) past := by
  intro a _
  cases a with
  | ok b =>
    refine ⟨fun d hd => ?_, rfl⟩
    cases hd
    exact h
  | error e => exact ⟨fun d hd => (by cases hd), trivial⟩

end Program

namespace Pool
variable {ι α : Type} [DecidableEq ι] {P : Pool ι α} {i : ι} {F : List Deed → Deed → Prop}
  {l : List (ι × Deed)}

def deedsOf (i : ι) (l : List (ι × Deed)) : List Deed :=
  l.filterMap fun x => if x.1 = i then some x.2 else none

theorem deedsOf_append (i : ι) (l l' : List (ι × Deed)) :
    deedsOf i (l ++ l') = deedsOf i l ++ deedsOf i l' :=
  List.filterMap_append

theorem exists_of_mem_deedsOf {n : Nat} {d : Deed} (h : d ∈ deedsOf i (l.take n)) :
    ∃ m, m < n ∧ l[m]? = some (i, d) := by
  obtain ⟨⟨j, d'⟩, hmem, hd⟩ := List.mem_filterMap.1 h
  by_cases hj : j = i
  · subst hj
    simp only [if_true, Option.some.injEq] at hd
    subst hd
    obtain ⟨m, hm⟩ := List.mem_iff_getElem?.1 hmem
    have hlt : m < n := by
      have := (List.getElem?_eq_some_iff.1 hm).1
      simp at this
      omega
    exact ⟨m, hlt, by rwa [List.getElem?_take_of_lt hlt] at hm⟩
  · simp [hj] at hd

theorem mem_deedsOf {m n : Nat} {d : Deed} (hm : m < n) (h : l[m]? = some (i, d)) :
    d ∈ deedsOf i (l.take n) := by
  refine List.mem_filterMap.2 ⟨(i, d), ?_, by simp⟩
  exact List.mem_iff_getElem?.2 ⟨m, by rwa [List.getElem?_take_of_lt hm]⟩

/-- Every deed of the log was allowed after the earlier deeds of its run, and every run will keep to
that. -/
structure Heeding (F : List Deed → Deed → Prop) (P : Pool ι α) (l : List (ι × Deed)) : Prop where
  filed : P.store.Filed
  runs (i : ι) : (P.runs i).Heeds F (fun _ _ => True) (deedsOf i l)
  allowed (n : Nat) (i : ι) (d : Deed) : l[n]? = some (i, d) → F (deedsOf i (l.take n)) d

theorem Heeding.happen (h : Heeding F P l) (e : Happening ι) :
    Heeding F (P.happen e) (l ++ P.done e) := by
  rcases P.happen_cases h.filed e with ⟨hd, hruns⟩ | ⟨i, c, next, a, ha, hi, hd, hruns⟩
  · rw [hd, List.append_nil]
    exact ⟨filed_happen h.filed e, fun i => hruns ▸ h.runs i, h.allowed⟩
  · have hnext := h.runs i
    rw [hi] at hnext
    obtain ⟨hF, hnext⟩ := hnext a ha
    refine ⟨filed_happen h.filed e, fun j => ?_, fun n j d hn => ?_⟩
    · rw [hruns, hd, deedsOf_append]
      by_cases hj : j = i
      · subst hj
        rw [Function.update_self]
        cases hc : c.deed? a <;> simpa [hc, deedsOf] using hnext
      · rw [Function.update_of_ne hj]
        have hnone : deedsOf j ((c.deed? a).map (i, ·)).toList = [] := by
          cases c.deed? a <;> simp [deedsOf, Ne.symm hj]
        rw [hnone, List.append_nil]
        exact h.runs j
    · rw [hd] at hn ⊢
      rcases Nat.lt_or_ge n l.length with hlt | hge
      · rw [List.getElem?_append_left hlt] at hn
        rw [List.take_append_of_le_length (Nat.le_of_lt hlt)]
        exact h.allowed n j d hn
      · rw [List.getElem?_append_right hge] at hn
        cases hc : c.deed? a with
        | none => simp [hc] at hn
        | some d' =>
          simp only [hc, Option.map_some, Option.toList_some, List.getElem?_singleton] at hn
          split at hn
          · cases hn
            have hlen : n = l.length := by omega
            subst hlen
            rw [List.take_left]
            exact hF d hc
          · cases hn

theorem Heeding.history (h : Heeding F P []) (hs : List (Happening ι)) :
    Heeding F (P.history hs) (P.deeds hs) := by
  induction hs using List.reverseRecOn with
  | nil => exact h
  | append_singleton hs e ih =>
    rw [history_concat, deeds_concat]
    exact ih.happen e

end Pool
end TenantOperator
