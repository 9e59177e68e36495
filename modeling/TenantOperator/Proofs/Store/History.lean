import Mathlib.Data.List.Induction
import Mathlib.Data.List.Nodup
import TenantOperator.Proofs.Store.Versions

/-! What is asked of a store in the course of time. Whatever a slot holds was put there by one
write, and nothing was written to the slot or deleted from it since. A version stands for that write
alone, so an update that carries it and goes through replaces the object its sender saw, even when
objects were deleted and created anew under the same key in between. -/
namespace TenantOperator

/-- What a store is asked for: a call, or a fault that is to strike later calls. -/
inductive Operation where
  | call (c : Call)
  /-- The next updates of a kind, `count` of them, meet a conflict. -/
  | injectConflicts (k : Kind) (count : Nat)
  | injectFailure (k : Kind) (v : Verb)

def Call.stored? : (c : Call) → Except Error c.Answer → Option (Sigma Resource)
  | .create k _, .ok r => some ⟨k, r⟩
  | .update k _, .ok r => some ⟨k, r⟩
  | _, _ => none

theorem Call.stored?_error (c : Call) (e : Error) : c.stored? (.error e) = none := by
  cases c <;> rfl

namespace Store
variable {s : Store} {k : Kind} {key : Key} {o : Operation} {l : List Operation}

def operate (s : Store) : Operation → Store
  | .call c => (s.perform c).2
  | .injectConflicts k count => s.addFaults (List.replicate count ⟨k, .update, .conflict⟩)
  | .injectFailure k v => s.addFaults [⟨k, v, .failure⟩]

def stored? (s : Store) : Operation → Option (Sigma Resource)
  | .call c => c.stored? (s.perform c).1
  | _ => none

/-- Whether an operation wrote to a slot or deleted from it. -/
def Touches (s : Store) (k : Kind) (key : Key) : Operation → Prop
  | .call c => c.Writes k key ∧ ∃ a, (s.perform c).1 = .ok a
  | _ => False

theorem touches_of_perform {c : Call} {a : c.Answer} {s' : Store} (h : s.perform c = (.ok a, s')) :
    s.Touches k key (.call c) ↔ c.Writes k key := by
  simp [Touches, h]

theorem not_touches_of_error {c : Call} {e : Error} {s' : Store}
    (h : s.perform c = (.error e, s')) : ¬s.Touches k key (.call c) := by
  simp [Touches, h]

/-- What an operation can be: it touches no slot, it writes one and hands out what it wrote, or it
empties one. -/
inductive Effect (s : Store) (o : Operation) : Prop where
  | idle (l : List PendingFault) (hs : s.operate o = { s with faults := l })
      (ho : s.stored? o = none) (ht : ∀ k key, ¬s.Touches k key o)
  | wrote {k : Kind} (r : Resource k) (hs : s.operate o = s.put r.key r)
      (ho : s.stored? o = some ⟨k, (s.write r.key r).1⟩)
      (ht : ∀ l key, s.Touches l key o ↔ l = k ∧ key = r.key)
  | emptied (k : Kind) (key : Key) (hs : s.operate o = s.remove k key) (ho : s.stored? o = none)
      (ht : ∀ l key', s.Touches l key' o ↔ l = k ∧ key' = key)

theorem Effect.of_error {c : Call} {e : Error} {l : List PendingFault}
    (h : s.perform c = (.error e, { s with faults := l })) : s.Effect (.call c) := by
  refine .idle l (congrArg Prod.snd h) ?_ fun k key => not_touches_of_error h
  rw [stored?, h, Call.stored?_error]

theorem Effect.of_written {c : Call} {a : c.Answer} (r : Resource k)
    (h : s.perform c = (.ok a, s.put r.key r))
    (ha : c.stored? (.ok a) = some ⟨k, (s.write r.key r).1⟩)
    (hc : ∀ l key, c.Writes l key ↔ k = l ∧ r.key = key) : s.Effect (.call c) := by
  refine .wrote r (congrArg Prod.snd h) ?_ fun l key => ?_
  · rw [stored?, h, ha]
  · rw [touches_of_perform h, hc, eq_comm, @eq_comm _ r.key]

theorem effect_call (s : Store) (c : Call) : s.Effect (.call c) := by
  cases c with
  | create k r =>
    rcases s.perform_create_cases r with ⟨e, l, h⟩ | ⟨-, h⟩
    · exact .of_error h
    · exact .of_written r h rfl fun _ _ => Call.writes_create
  | update k r =>
    rcases s.perform_update_cases r with ⟨e, l, h⟩ | ⟨-, h⟩
    · exact .of_error h
    · exact .of_written r h rfl fun _ _ => Call.writes_update
  | get k key =>
    rcases s.perform_eq (.get k key) with h | ⟨p, l, h⟩
    · exact .idle s.faults (congrArg Prod.snd h) rfl fun _ _ ht =>
        absurd ht.1 (by simp [Call.Writes, Call.Puts])
    · exact .of_error h
  | list k ns labels =>
    rcases s.perform_eq (.list k ns labels) with h | ⟨p, l, h⟩
    · exact .idle s.faults (congrArg Prod.snd h) rfl fun _ _ ht =>
        absurd ht.1 (by simp [Call.Writes, Call.Puts])
    · exact .of_error h
  | delete k key =>
    rcases s.perform_eq (.delete k key) with h | ⟨p, l, h⟩
    · refine .emptied k key (congrArg Prod.snd h) rfl fun l key' => ?_
      rw [touches_of_perform h, Call.writes_delete, eq_comm, @eq_comm _ key]
    · exact .of_error h

theorem effect (s : Store) (o : Operation) : s.Effect o := by
  cases o with
  | call c => exact s.effect_call c
  | injectConflicts k count => exact .idle _ rfl rfl fun _ _ => id
  | injectFailure k v => exact .idle _ rfl rfl fun _ _ => id

theorem version_operate (s : Store) (o : Operation) :
    (s.operate o).version = s.version + (s.stored? o).toList.length := by
  cases s.effect o with
  | idle l hs ho ht => simp [hs, ho]
  | wrote r hs ho ht =>
    rw [hs, ho]
    rfl
  | emptied k key hs ho ht => simp [hs, ho, remove]

theorem version_of_stored? {x : Sigma Resource} (h : s.stored? o = some x) :
    x.2.metadata.resourceVersion = some (toString (s.version + 1)) := by
  cases s.effect o with
  | idle l hs ho ht => cases ho.symm.trans h
  | wrote r hs ho ht =>
    cases ho.symm.trans h
    rfl
  | emptied k key hs ho ht => cases ho.symm.trans h

theorem stored?_or_not_touches {x : Resource k} (h : (s.operate o).find? k key = some x) :
    s.stored? o = some ⟨k, x⟩ ∨ ¬s.Touches k key o ∧ s.find? k key = some x := by
  cases s.effect o with
  | idle l hs ho ht =>
    rw [hs, find?_setFaults] at h
    exact .inr ⟨ht k key, h⟩
  | @wrote l r hs ho ht =>
    rw [hs] at h
    rw [ht]
    by_cases he : k = l ∧ key = r.key
    · obtain ⟨rfl, rfl⟩ := he
      rw [find?_put_self] at h
      cases h
      exact .inl ho
    · rw [find?_put_of_ne s he] at h
      exact .inr ⟨he, h⟩
  | emptied l key' hs ho ht =>
    rw [hs] at h
    rw [ht]
    by_cases he : k = l ∧ key = key'
    · obtain ⟨rfl, rfl⟩ := he
      rw [find?_remove_self] at h
      cases h
    · rw [find?_remove_of_ne s he] at h
      exact .inr ⟨he, h⟩

theorem Reached.operate (h : s.Reached) (o : Operation) : (s.operate o).Reached := by
  cases o with
  | call c => exact h.call c
  | injectConflicts k count => exact h.faults _
  | injectFailure k v => exact h.faults _

/-- No two objects have the same version. -/
def Unshared (s : Store) : Prop :=
  ∀ ⦃k : Kind⦄ ⦃key : Key⦄ ⦃x : Resource k⦄ ⦃k' : Kind⦄ ⦃key' : Key⦄ ⦃x' : Resource k'⦄,
    s.find? k key = some x → s.find? k' key' = some x' →
    x.metadata.resourceVersion = x'.metadata.resourceVersion → k = k' ∧ key = key'

theorem Sound.version_ne (hs : s.Sound) {x : Resource k} (h : s.find? k key = some x) :
    x.metadata.resourceVersion ≠ some (toString (s.version + 1)) := by
  intro hv
  obtain ⟨n, hn, hx⟩ := hs.stamped h
  have hn' : n = s.version + 1 := Nat.repr_injective (Option.some.inj (hx.symm.trans hv))
  omega

theorem Unshared.operate (h : s.Unshared) (hs : s.Sound) (hs' : (s.operate o).Sound) :
    (s.operate o).Unshared := by
  intro k key x k' key' x' hx hx' hv
  rcases stored?_or_not_touches hx with hnew | ⟨-, hold⟩ <;>
    rcases stored?_or_not_touches hx' with hnew' | ⟨-, hold'⟩
  · cases hnew.symm.trans hnew'
    exact ⟨rfl, (hs'.filed hx).symm.trans (hs'.filed hx')⟩
  · exact absurd (hv.symm.trans (version_of_stored? hnew)) (hs.version_ne hold')
  · exact absurd (hv.trans (version_of_stored? hnew')) (hs.version_ne hold)
  · exact h hold hold' hv

def after (l : List Operation) : Store := l.foldl operate {}

theorem after_concat (l : List Operation) (o : Operation) :
    after (l ++ [o]) = (after l).operate o := by
  simp [after]

theorem reached_after (l : List Operation) : (after l).Reached := by
  induction l using List.reverseRecOn with
  | nil => exact .fresh
  | append_singleton l o ih => exact after_concat l o ▸ ih.operate o

theorem unshared_after (l : List Operation) : (after l).Unshared := by
  induction l using List.reverseRecOn with
  | nil => exact fun k _ _ _ _ _ hx => by cases k <;> cases hx
  | append_singleton l o ih =>
    have hs' := (reached_after (l ++ [o])).sound
    rw [after_concat] at hs' ⊢
    exact ih.operate (reached_after l).sound hs'

/-- The objects that were stored and handed out in the course of operations, the first one first. -/
def handedOut : Store → List Operation → List (Sigma Resource)
  | _, [] => []
  | s, o :: l => (s.stored? o).toList ++ handedOut (s.operate o) l

theorem version_foldl_operate (s : Store) (l : List Operation) :
    (l.foldl operate s).version = s.version + (s.handedOut l).length := by
  induction l generalizing s with
  | nil => rfl
  | cons o l ih =>
    rw [List.foldl_cons, ih, version_operate, handedOut, List.length_append]
    omega

/-- The versions of a history are the numbers from one on, each handed out once and in order. -/
theorem versions_handedOut (s : Store) (l : List Operation) :
    (s.handedOut l).map (·.2.metadata.resourceVersion) =
      (List.range' (s.version + 1) (s.handedOut l).length).map fun n => some (toString n) := by
  induction l generalizing s with
  | nil => rfl
  | cons o l ih =>
    rw [handedOut, List.map_append, ih, version_operate, List.length_append]
    cases ho : s.stored? o with
    | none => simp
    | some x => simp [version_of_stored? ho, List.range'_succ, Nat.add_comm 1]

theorem version_after (l : List Operation) : (after l).version = (handedOut {} l).length := by
  rw [after, version_foldl_operate]
  exact Nat.zero_add _

theorem exists_version_of_mem_handedOut {x : Sigma Resource} (hx : x ∈ handedOut {} l) :
    ∃ n, 1 ≤ n ∧ n ≤ (after l).version ∧ x.2.metadata.resourceVersion = some (toString n) := by
  have hv : x.2.metadata.resourceVersion ∈
      (handedOut {} l).map (·.2.metadata.resourceVersion) := List.mem_map_of_mem hx
  rw [versions_handedOut, ← version_after] at hv
  obtain ⟨n, hn, hv⟩ := List.mem_map.1 hv
  have hzero : ({} : Store).version = 0 := rfl
  obtain ⟨hfirst, hlast⟩ := List.mem_range'_1.1 hn
  exact ⟨n, by omega, by omega, hv.symm⟩

theorem handedOut_append (s : Store) (l l' : List Operation) :
    s.handedOut (l ++ l') = s.handedOut l ++ (l.foldl operate s).handedOut l' := by
  induction l generalizing s with
  | nil => rfl
  | cons o l ih => simp [handedOut, ih]

/-- The object was written to the slot in the course of a history, and nothing was written to the
slot or deleted from it since. -/
def Latest (l : List Operation) (k : Kind) (key : Key) (x : Resource k) : Prop :=
  ∃ a o b, l = a ++ o :: b ∧ (after a).stored? o = some ⟨k, x⟩ ∧
    ∀ b₁ q b₂, b = b₁ ++ q :: b₂ → ¬(after (a ++ o :: b₁)).Touches k key q

theorem latest_of_find? {x : Resource k} (h : (after l).find? k key = some x) :
    Latest l k key x := by
  induction l using List.reverseRecOn with
  | nil => cases k <;> cases h
  | append_singleton l o ih =>
    rw [after_concat] at h
    rcases stored?_or_not_touches h with hnew | ⟨hno, hold⟩
    · exact ⟨l, o, [], rfl, hnew, fun b₁ q b₂ hb => by simp at hb⟩
    · obtain ⟨a, p, b, rfl, hp, hb⟩ := ih hold
      refine ⟨a, p, b ++ [o], by simp, hp, fun b₁ q b₂ hsplit => ?_⟩
      -- The last operation is `o`, or it is one of those before it.
      rcases List.eq_nil_or_concat b₂ with rfl | ⟨b₃, o', rfl⟩
      · obtain ⟨rfl, hq⟩ := List.append_inj' hsplit rfl
        cases hq
        exact hno
      · have hinit : b ++ [o] = (b₁ ++ q :: b₃) ++ [o'] := by simpa using hsplit
        exact hb b₁ q b₃ (List.append_inj' hinit rfl).1

theorem Latest.mem_handedOut {x : Resource k} (h : Latest l k key x) :
    ⟨k, x⟩ ∈ handedOut {} l := by
  obtain ⟨a, o, b, rfl, ho, -⟩ := h
  rw [handedOut_append]
  refine List.mem_append_right _ ?_
  show _ ∈ ((after a).stored? o).toList ++ _
  simp [ho]

theorem eq_of_mem_handedOut {x y : Sigma Resource} (hx : x ∈ handedOut {} l)
    (hy : y ∈ handedOut {} l)
    (hv : x.2.metadata.resourceVersion = y.2.metadata.resourceVersion) : x = y := by
  have hnodup : ((handedOut {} l).map (·.2.metadata.resourceVersion)).Nodup := by
    rw [versions_handedOut]
    refine List.Nodup.map (fun m n hmn => ?_) (List.nodup_range' 1)
    exact Nat.repr_injective (Option.some.inj hmn)
  exact List.inj_on_of_nodup_map hnodup hx hy hv

/-- What the versions of a store's objects are good for, after a history of operations. -/
structure Versioned (l : List Operation) : Prop where
  /-- Every object is found under its own key and has a version that was handed out. -/
  stamped : ∀ ⦃k : Kind⦄ ⦃key : Key⦄ ⦃x : Resource k⦄, (after l).find? k key = some x →
    x.key = key ∧ ∃ n, 1 ≤ n ∧ n ≤ (after l).version ∧
      x.metadata.resourceVersion = some (toString n)
  unshared : (after l).Unshared
  /-- The versions that were handed out are the numbers up to the counter, in their order. -/
  ascending : (handedOut {} l).map (·.2.metadata.resourceVersion) =
    (List.range' 1 (after l).version).map fun n => some (toString n)
  /-- An update with a version goes through only on the object that was handed out with it, and only
  if the slot was left alone since. -/
  guarded : ∀ ⦃k : Kind⦄ ⦃r x : Resource k⦄ ⦃v : String⦄, r.metadata.resourceVersion = some v →
    ((after l).perform (.update k r)).1 = .ok x →
      ∃ old, (after l).find? k r.key = some old ∧ old.metadata.resourceVersion = some v ∧
        Latest l k r.key old ∧
        ∀ y ∈ handedOut {} l, y.2.metadata.resourceVersion = some v → y = ⟨k, old⟩
  /-- A call that fails only takes out the fault that struck it. -/
  failed : ∀ ⦃c : Call⦄ ⦃e : Error⦄, ((after l).perform c).1 = .error e →
    ∃ faults, ((after l).perform c).2 = { after l with faults }

theorem versioned_after (l : List Operation) : Versioned l where
  stamped k key x hx :=
    ⟨(reached_after l).filed hx, exists_version_of_mem_handedOut (latest_of_find? hx).mem_handedOut⟩
  unshared := unshared_after l
  ascending := by rw [versions_handedOut, version_after]
  guarded k r x v hv hx := by
    rcases (after l).perform_update_cases r with ⟨e, f, h⟩ | ⟨⟨old, hold, hsame⟩, -⟩
    · rw [h] at hx
      cases hx
    · have hov : old.metadata.resourceVersion = some v := (hsame (by simp [hv])).trans hv
      have hlatest := latest_of_find? hold
      refine ⟨old, hold, hov, hlatest, fun y hy hyv => ?_⟩
      exact eq_of_mem_handedOut hy hlatest.mem_handedOut (hyv.trans hov.symm)
  failed c e h := by
    have hno (k : Kind) (key : Key) : ¬(after l).Touches k key (.call c) := by
      rintro ⟨-, a, ha⟩
      cases h.symm.trans ha
    cases (after l).effect (.call c) with
    | idle f hs ho ht => exact ⟨f, hs⟩
    | wrote r hs ho ht => exact absurd ((ht _ _).2 ⟨rfl, rfl⟩) (hno _ _)
    | emptied k key hs ho ht => exact absurd ((ht _ _).2 ⟨rfl, rfl⟩) (hno _ _)

section anew

def someTenant : Tenant where
  metadata := { name := some "a" }
  content := { name := "a" }

/-- An object that was deleted and created anew does not pass for the one it was. -/
example : ((after [.call (.create .tenant someTenant), .call (.delete .tenant someTenant.key),
    .call (.create .tenant someTenant)]).perform
      (.update .tenant (someTenant.withVersion (some "1")))).1 =
    .error (.conflict "Tenant" "a") := rfl

end anew

end Store
end TenantOperator
