import Mathlib.Logic.Relation
import Std.Data.String.ToNat
import TenantOperator.Proofs.Store.Calm

/-! Versions. Each write takes a version that no write took before, so an object that is found with
a version of the past is the object of the past: a write that is sent with the version it read goes
through only if nobody wrote the object in between. -/
namespace TenantOperator
namespace Store
variable {s s₁ s' : Store} {k : Kind} {key : Key}

theorem create_cases (s : Store) (r : Resource k) :
    (∃ e, s.create r = (.error e, s)) ∨
    s.find? k r.key = none ∧ s.create r = (.ok (s.write r.key r).1, s.put r.key r) := by
  cases hn : r.metadata.name with
  | none =>
    left
    exact ⟨.unnamed k, by simp only [create, hn]⟩
  | some n =>
    rw [create_of_named hn]
    by_cases hr : (s.find? k r.key).isSome
    · left
      exact ⟨_, if_pos hr⟩
    · right
      exact ⟨by simpa using hr, if_neg hr⟩

theorem find?_create_of_some (r : Resource k) {l : Kind} {x : Resource l}
    (h : s.find? l key = some x) : (s.create r).2.find? l key = some x := by
  rcases s.create_cases r with ⟨e, he⟩ | ⟨hnone, hok⟩
  · rw [he]
    exact h
  · rw [hok, find?_put_of_ne s _ r, h]
    rintro ⟨rfl, rfl⟩
    rw [hnone] at h
    cases h

theorem eq_of_find?_create {r x : Resource k} (h : (s.create r).2.find? k key = some x) :
    s.find? k key = some x ∨ x = r.withVersion (some (toString (s.version + 1))) := by
  rcases s.create_cases r with ⟨e, he⟩ | ⟨-, hok⟩
  · rw [he] at h
    exact Or.inl h
  · rw [hok] at h
    by_cases hk : key = r.key
    · rw [hk, find?_put_self] at h
      exact Or.inr (Option.some.inj h).symm
    · rw [find?_put_of_ne s fun hc => hk hc.2] at h
      exact Or.inl h

theorem update_cases (s : Store) (r : Resource k) :
    (∃ e, s.update r = (.error e, s)) ∨
    (∃ current, s.find? k r.key = some current ∧
      (r.metadata.resourceVersion.isSome →
        current.metadata.resourceVersion = r.metadata.resourceVersion)) ∧
      s.update r = (.ok (s.write r.key r).1, s.put r.key r) := by
  unfold update
  split
  · exact Or.inl ⟨_, rfl⟩
  · rename_i current hc
    split
    · exact Or.inl ⟨_, rfl⟩
    · rename_i hv
      right
      refine ⟨⟨current, hc, fun hs => ?_⟩, rfl⟩
      simpa [hs] using hv

theorem perform_create_cases (s : Store) (r : Resource k) :
    (∃ e l, s.perform (.create k r) = (.error e, { s with faults := l })) ∨
    s.find? k r.key = none ∧
      s.perform (.create k r) = (.ok (s.write r.key r).1, s.put r.key r) := by
  rcases s.perform_eq (.create k r) with h | ⟨p, l, h⟩
  · rw [h]
    rcases s.create_cases r with ⟨e, he⟩ | hok
    · exact Or.inl ⟨e, s.faults, he⟩
    · exact Or.inr hok
  · exact Or.inl ⟨p.error, l, h⟩

theorem perform_update_cases (s : Store) (r : Resource k) :
    (∃ e l, s.perform (.update k r) = (.error e, { s with faults := l })) ∨
    (∃ current, s.find? k r.key = some current ∧
      (r.metadata.resourceVersion.isSome →
        current.metadata.resourceVersion = r.metadata.resourceVersion)) ∧
      s.perform (.update k r) = (.ok (s.write r.key r).1, s.put r.key r) := by
  rcases s.perform_eq (.update k r) with h | ⟨p, l, h⟩
  · rw [h]
    rcases s.update_cases r with ⟨e, he⟩ | hok
    · exact Or.inl ⟨e, s.faults, he⟩
    · exact Or.inr hok
  · exact Or.inl ⟨p.error, l, h⟩

/-- What one call, or a change of the faults that are to be met, makes of a store. -/
inductive Next : Store → Store → Prop where
  | answer (s : Store) (c : Call) : Next s (s.answer c).2
  | faults (s : Store) (l : List PendingFault) : Next s { s with faults := l }

def Leads : Store → Store → Prop := Relation.ReflTransGen Next

theorem next_perform (s : Store) (c : Call) : Next s (s.perform c).2 := by
  rcases s.perform_eq c with h | ⟨p, l, h⟩ <;> rw [h]
  · exact .answer s c
  · exact .faults s l

theorem Next.found (h : Next s s') {r : Resource k} (hr : s'.find? k key = some r) :
    s.find? k key = some r ∧ s.version ≤ s'.version ∨
      r.metadata.resourceVersion = some (toString (s.version + 1)) ∧
        s'.version = s.version + 1 := by
  cases h with
  | faults l =>
    left
    rw [find?_setFaults] at hr
    exact ⟨hr, Nat.le_refl _⟩
  | answer c =>
    rcases s.answer_snd c with h | ⟨l, x, -, h⟩ | ⟨l, key', -, h⟩ <;> rw [h] at hr ⊢
    · exact Or.inl ⟨hr, Nat.le_refl _⟩
    · have hv : (s.put x.key x).version = s.version + 1 := rfl
      by_cases he : k = l ∧ key = x.key
      · obtain ⟨rfl, rfl⟩ := he
        rw [find?_put_self] at hr
        cases hr
        exact Or.inr ⟨rfl, hv⟩
      · rw [find?_put_of_ne s he] at hr
        exact Or.inl ⟨hr, by omega⟩
    · left
      have hv : (s.remove l key').version = s.version := version_setTable ..
      by_cases he : k = l ∧ key = key'
      · obtain ⟨rfl, rfl⟩ := he
        rw [find?_remove_self] at hr
        cases hr
      · rw [find?_remove_of_ne s he] at hr
        exact ⟨hr, Nat.le_of_eq hv.symm⟩

theorem Next.version_le (h : Next s s') : s.version ≤ s'.version := by
  cases h with
  | faults l => exact Nat.le_refl _
  | answer c =>
    rcases s.answer_snd c with h | ⟨l, x, -, h⟩ | ⟨l, key', -, h⟩
    · exact Nat.le_of_eq (congrArg version h.symm)
    · rw [h]
      exact Nat.le_succ s.version
    · rw [h]
      exact Nat.le_of_eq (version_setTable ..).symm

/-- Every object lies under its own key and has a version that was handed out. -/
structure Sound (s : Store) : Prop where
  filed : s.Filed
  stamped : ∀ ⦃k : Kind⦄ ⦃key : Key⦄ ⦃r : Resource k⦄, s.find? k key = some r →
    ∃ n ≤ s.version, r.metadata.resourceVersion = some (toString n)

theorem Sound.next (hs : s.Sound) (h : Next s s') : s'.Sound where
  filed := by
    cases h with
    | answer c => exact hs.filed.answer c
    | faults l =>
      intro k key r hr
      rw [find?_setFaults] at hr
      exact hs.filed hr
  stamped k key r hr := by
    rcases h.found hr with ⟨hr, hv⟩ | ⟨hr, hv⟩
    · obtain ⟨n, hn, hr⟩ := hs.stamped hr
      exact ⟨n, Nat.le_trans hn hv, hr⟩
    · exact ⟨s.version + 1, Nat.le_of_eq hv.symm, hr⟩

theorem Reached.sound (h : s.Reached) : s.Sound := by
  induction h with
  | fresh => exact ⟨Reached.fresh.filed, fun k key r hr => by cases k <;> cases hr⟩
  | call c _ ih => exact ih.next (next_perform _ c)
  | faults l _ ih => exact ih.next (.faults _ _)

namespace Leads

theorem refl (s : Store) : s.Leads s := Relation.ReflTransGen.refl

theorem trans (h : s.Leads s₁) (h' : s₁.Leads s') : s.Leads s' := Relation.ReflTransGen.trans h h'

theorem perform (h : s.Leads s') (c : Call) : s.Leads (s'.perform c).2 :=
  Relation.ReflTransGen.tail h (next_perform s' c)

theorem answer (h : s.Leads s') (c : Call) : s.Leads (s'.answer c).2 :=
  Relation.ReflTransGen.tail h (.answer s' c)

theorem run {α : Type} (h : s.Leads s') (p : Program α) : s.Leads (p.run s').2 := by
  induction p generalizing s' with
  | done r => exact h
  | call c next ih => exact ih _ (h.perform c)

theorem sound (h : s.Leads s') (hs : s.Sound) : s'.Sound := by
  induction h with
  | refl => exact hs
  | tail _ hn ih => exact ih.next hn

theorem version_le (h : s.Leads s') : s.version ≤ s'.version := by
  induction h with
  | refl => exact Nat.le_refl _
  | tail _ hn ih => exact Nat.le_trans ih hn.version_le

/-- An object with a version of the past was there in the past. -/
theorem find?_of_version (h : s.Leads s') {r : Resource k} {n : Nat} (hn : n ≤ s.version)
    (hv : r.metadata.resourceVersion = some (toString n)) (hr : s'.find? k key = some r) :
    s.find? k key = some r := by
  induction h with
  | refl => exact hr
  | @tail s₁ s₂ hl hstep ih =>
    rcases hstep.found hr with ⟨hr, -⟩ | ⟨hfresh, -⟩
    · exact ih hr
    · -- The version that the step took is later than all versions of the past.
      have heq : toString n = toString (s₁.version + 1) := Option.some.inj (hv.symm.trans hfresh)
      have hn' : n = s₁.version + 1 := Nat.repr_injective heq
      have := version_le hl
      omega

theorem eq_of_version_eq (h : s.Leads s') (hs : s.Sound) {r r' : Resource k}
    (hr : s.find? k key = some r) (hr' : s'.find? k key = some r')
    (hv : r'.metadata.resourceVersion = r.metadata.resourceVersion) : r' = r := by
  obtain ⟨n, hn, hrn⟩ := hs.stamped hr
  have hold := h.find?_of_version hn (hv.trans hrn) hr'
  rw [hr] at hold
  exact (Option.some.inj hold).symm

end Leads
end Store
end TenantOperator
