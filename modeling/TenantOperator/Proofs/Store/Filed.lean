import TenantOperator.Store.Program

/-! Stores as their calls make them. Every object lies under its own key, and a call changes the
slot it writes and no other. -/
namespace TenantOperator

namespace Call

/-- Whether a call may put an object into a slot. -/
def Puts (k : Kind) (key : Key) : Call → Prop
  | .create k' r => k' = k ∧ r.key = key
  | .update k' r => k' = k ∧ r.key = key
  | _ => False

/-- Whether a call may change a slot. -/
def Writes (k : Kind) (key : Key) (c : Call) : Prop := c.Puts k key ∨ c = .delete k key

theorem writes_create {k k' : Kind} {r : Resource k'} {key : Key} :
    (create k' r).Writes k key ↔ k' = k ∧ r.key = key := by
  simp [Writes, Puts]

theorem writes_update {k k' : Kind} {r : Resource k'} {key : Key} :
    (update k' r).Writes k key ↔ k' = k ∧ r.key = key := by
  simp [Writes, Puts]

theorem writes_delete {k k' : Kind} {key key' : Key} :
    (delete k' key').Writes k key ↔ k' = k ∧ key' = key := by
  simp [Writes, Puts]

end Call

namespace Store
variable {s s' : Store}

/-- Every object lies under its own key. -/
def Filed (s : Store) : Prop :=
  ∀ ⦃k : Kind⦄ ⦃key : Key⦄ ⦃r : Resource k⦄, s.find? k key = some r → r.key = key

theorem Filed.put (hs : s.Filed) {k : Kind} {key : Key} {r : Resource k} (h : r.key = key) :
    (s.put key r).Filed := by
  intro l key' r' hr
  by_cases he : l = k ∧ key' = key
  · obtain ⟨rfl, rfl⟩ := he
    rw [find?_put_self] at hr
    cases hr
    exact h
  · rw [find?_put_of_ne s he] at hr
    exact hs hr

theorem Filed.remove (hs : s.Filed) (k : Kind) (key : Key) : (s.remove k key).Filed := by
  intro l key' r hr
  by_cases he : l = k ∧ key' = key
  · obtain ⟨rfl, rfl⟩ := he
    simp at hr
  · rw [find?_remove_of_ne s he] at hr
    exact hs hr

theorem create_snd (s : Store) {k : Kind} (r : Resource k) :
    (s.create r).2 = s ∨ (s.create r).2 = s.put r.key r := by
  simp only [create]
  split
  · exact Or.inl rfl
  · rename_i name h
    have hk : (⟨name, r.metadata.ns⟩ : Key) = r.key := by simp [Resource.key, Metadata.key,
      Metadata.anyName, h]
    rw [hk]
    split
    · exact Or.inl rfl
    · exact Or.inr rfl

theorem update_snd (s : Store) {k : Kind} (r : Resource k) :
    (s.update r).2 = s ∨ (s.update r).2 = s.put r.key r := by
  simp only [update]
  split
  · exact Or.inl rfl
  · split
    · exact Or.inl rfl
    · exact Or.inr rfl

theorem answer_snd (s : Store) (c : Call) :
    (s.answer c).2 = s ∨
    (∃ k, ∃ r : Resource k, c.Puts k r.key ∧ (s.answer c).2 = s.put r.key r) ∨
    ∃ k key, c = .delete k key ∧ (s.answer c).2 = s.remove k key := by
  cases c with
  | get k key => exact Or.inl rfl
  | list k ns labels => exact Or.inl rfl
  | create k r =>
    rcases s.create_snd r with h | h
    · exact Or.inl h
    · exact Or.inr (Or.inl ⟨k, r, ⟨rfl, rfl⟩, h⟩)
  | update k r =>
    rcases s.update_snd r with h | h
    · exact Or.inl h
    · exact Or.inr (Or.inl ⟨k, r, ⟨rfl, rfl⟩, h⟩)
  | delete k key => exact Or.inr (Or.inr ⟨k, key, rfl, rfl⟩)

theorem Filed.answer (hs : s.Filed) (c : Call) : (s.answer c).2.Filed := by
  rcases s.answer_snd c with h | ⟨k, r, -, h⟩ | ⟨k, key, -, h⟩ <;> rw [h]
  · exact hs
  · exact hs.put rfl
  · exact hs.remove k key

theorem find?_answer_of_not_writes (s : Store) {c : Call} {k : Kind} {key : Key}
    (hc : ¬c.Writes k key) : (s.answer c).2.find? k key = s.find? k key := by
  rcases s.answer_snd c with h | ⟨l, r, hp, h⟩ | ⟨l, key', hd, h⟩ <;> rw [h]
  · refine find?_put_of_ne s ?_ r
    rintro ⟨rfl, rfl⟩
    exact hc (Or.inl hp)
  · refine find?_remove_of_ne s ?_
    rintro ⟨rfl, rfl⟩
    exact hc (Or.inr hd)

/-- A call does what it does without faults, or it fails and only takes a fault out. -/
theorem perform_eq (s : Store) (c : Call) :
    s.perform c = s.answer c ∨
    ∃ p : PendingFault, ∃ l, s.perform c = (.error p.error, { s with faults := l }) := by
  unfold perform
  split
  · rename_i p s' h
    simp only [takeFault, Option.map_eq_some_iff, Prod.mk.injEq] at h
    obtain ⟨q, -, rfl, rfl⟩ := h
    exact Or.inr ⟨q, _, rfl⟩
  · exact Or.inl rfl

@[simp] theorem find?_setFaults (s : Store) (l : List PendingFault) (k : Kind) (key : Key) :
    ({ s with faults := l } : Store).find? k key = s.find? k key := by
  cases k <;> rfl

theorem Filed.perform (hs : s.Filed) (c : Call) : (s.perform c).2.Filed := by
  rcases s.perform_eq c with h | ⟨p, l, h⟩ <;> rw [h]
  · exact hs.answer c
  · intro k key r hr
    rw [find?_setFaults] at hr
    exact hs hr

theorem find?_perform_of_not_writes (s : Store) {c : Call} {k : Kind} {key : Key}
    (hc : ¬c.Writes k key) : (s.perform c).2.find? k key = s.find? k key := by
  rcases s.perform_eq c with h | ⟨p, l, h⟩ <;> rw [h]
  · exact s.find?_answer_of_not_writes hc
  · exact s.find?_setFaults ..

/-- Stores that calls and faults make of a fresh one. -/
inductive Reached : Store → Prop where
  | fresh : Reached {}
  | call {s : Store} (c : Call) : Reached s → Reached (s.perform c).2
  | faults {s : Store} (l : List PendingFault) : Reached s → Reached (s.addFaults l)

theorem Reached.filed (h : s.Reached) : s.Filed := by
  induction h with
  | fresh => intro k key r hr; cases k <;> cases hr
  | call c _ ih => exact ih.perform c
  | faults l _ ih =>
    intro k key r hr
    exact ih (by simpa [addFaults] using hr)

theorem Reached.run {α : Type} (h : s.Reached) (p : Program α) : (p.run s).2.Reached := by
  induction p generalizing s with
  | done r => exact h
  | call c next ih => exact ih _ (h.call c)

/-- The two stores have the same objects outside of some slots. -/
def AgreeOff (P : Kind → Key → Prop) (s s' : Store) : Prop :=
  ∀ k key, ¬P k key → s'.find? k key = s.find? k key

namespace AgreeOff
variable {P Q : Kind → Key → Prop} {s₁ s₂ s₃ : Store}

theorem refl (P : Kind → Key → Prop) (s : Store) : AgreeOff P s s := fun _ _ _ => rfl

theorem trans (h : AgreeOff P s₁ s₂) (h' : AgreeOff P s₂ s₃) : AgreeOff P s₁ s₃ :=
  fun k key hp => (h' k key hp).trans (h k key hp)

theorem mono (h : AgreeOff P s s') (hpq : ∀ k key, P k key → Q k key) : AgreeOff Q s s' :=
  fun k key hq => h k key fun hp => hq (hpq k key hp)

end AgreeOff

theorem agreeOff_put (s : Store) {k : Kind} (key : Key) (r : Resource k) :
    AgreeOff (fun l key' => l = k ∧ key' = key) s (s.put key r) :=
  fun _ _ h => find?_put_of_ne s h r

theorem agreeOff_remove (s : Store) (k : Kind) (key : Key) :
    AgreeOff (fun l key' => l = k ∧ key' = key) s (s.remove k key) :=
  fun _ _ h => find?_remove_of_ne s h

end Store
end TenantOperator
