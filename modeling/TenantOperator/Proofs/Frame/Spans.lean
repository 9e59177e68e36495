import TenantOperator.Proofs.Interleaving.Unaware
import TenantOperator.Proofs.Interruption.Falters

/-! What a run adds to a store and what it takes away, between any two moments of it. A program that
only makes new objects, beside some slots that it may write at will, never changes an object that it
finds outside of those slots; nor does one that only deletes. -/
namespace TenantOperator
open Program Store

namespace Store
variable {P N : Kind → Key → Prop} {s s' : Store}

/-- Outside of `P`, `s'` is `s` with new objects in slots of `N`. -/
def Adds (P N : Kind → Key → Prop) (s s' : Store) : Prop :=
  ∀ k key, s'.find? k key ≠ s.find? k key → P k key ∨ N k key ∧ s.find? k key = none

/-- Outside of `P`, `s'` is `s` without some objects in slots of `N`. -/
def Drops (P N : Kind → Key → Prop) (s s' : Store) : Prop :=
  ∀ k key, s'.find? k key ≠ s.find? k key → P k key ∨ N k key ∧ s'.find? k key = none

theorem rely_adds (P N : Kind → Key → Prop) : Rely (Adds P N) where
  faults s l k key h := absurd (s.find?_setFaults l k key) h
  trans s₁ s₂ s₃ h h' k key hne := by
    by_cases he : s₂.find? k key = s₁.find? k key
    · simpa only [he] using h' k key (by rwa [he])
    · exact h k key he

theorem rely_drops (P N : Kind → Key → Prop) : Rely (Drops P N) where
  faults s l k key h := absurd (s.find?_setFaults l k key) h
  trans s₁ s₂ s₃ h h' k key hne := by
    by_cases he : s₃.find? k key = s₂.find? k key
    · simpa only [he] using h k key (by rwa [← he])
    · exact h' k key he

theorem adds_of_agreeOff (h : AgreeOff P s s') : Adds P N s s' := fun k key hne =>
  Or.inl (Classical.not_not.1 fun hP => hne (h k key hP))

theorem drops_of_agreeOff (h : AgreeOff P s s') : Drops P N s s' := fun k key hne =>
  Or.inl (Classical.not_not.1 fun hP => hne (h k key hP))

end Store

namespace Call
variable {P N : Kind → Key → Prop} {c : Call}

/-- Calls that write in `P` only, or try to make an object in `N`. -/
def Makes (P N : Kind → Key → Prop) (c : Call) : Prop :=
  (∀ k key, c.Writes k key → P k key) ∨ ∃ k, ∃ r : Resource k, c = .create k r ∧ N k r.key

/-- Calls that write in `P` only, or delete an object in `N`. -/
def Discards (P N : Kind → Key → Prop) (c : Call) : Prop :=
  (∀ k key, c.Writes k key → P k key) ∨ ∃ k key, c = .delete k key ∧ N k key

theorem agreeOff_perform (s : Store) (h : ∀ k key, c.Writes k key → P k key) :
    AgreeOff P s (s.perform c).2 :=
  fun k key hP => s.find?_perform_of_not_writes fun hw => hP (h k key hw)

theorem Makes.adds (h : c.Makes P N) (s : Store) : Adds P N s (s.perform c).2 := by
  rcases h with h | ⟨k, r, rfl, hN⟩
  · exact adds_of_agreeOff (agreeOff_perform s h)
  · rcases s.perform_create_cases r with ⟨e, l, he⟩ | ⟨hnone, he⟩ <;> rw [he]
    · exact (rely_adds P N).faults s l
    · intro l key hne
      by_cases hk : l = k ∧ key = r.key
      · obtain ⟨rfl, rfl⟩ := hk
        exact Or.inr ⟨hN, hnone⟩
      · exact absurd (find?_put_of_ne s hk r) hne

theorem Discards.drops (h : c.Discards P N) (s : Store) : Drops P N s (s.perform c).2 := by
  rcases h with h | ⟨k, key, rfl, hN⟩
  · exact drops_of_agreeOff (agreeOff_perform s h)
  · rcases s.perform_eq (.delete k key) with he | ⟨p, l, he⟩ <;> rw [he]
    · intro k' key' hne
      by_cases hk : k' = k ∧ key' = key
      · obtain ⟨rfl, rfl⟩ := hk
        exact Or.inr ⟨hN, find?_remove_self ..⟩
      · exact absurd (find?_remove_of_ne s hk) hne
    · exact (rely_drops P N).faults s l

theorem makes_read (h : c.Reads) : c.Makes P N := Or.inl fun k key hw => absurd hw (h k key)

theorem discards_read (h : c.Reads) : c.Discards P N := Or.inl fun k key hw => absurd hw (h k key)

end Call

namespace Program
variable {α β : Type} {P N : Kind → Key → Prop} {p : Program α} {s x y : Store}

/-- The run from `s` comes through `x` and, there or later, through `y`. -/
def Spans : Program α → Store → Store → Store → Prop
  | .done _, s, x, y => x = s ∧ y = s
  | .call c next, s, x, y => x = s ∧ (Program.call c next).Passes s y ∨
      (next (s.perform c).1).Spans (s.perform c).2 x y

theorem Passes.spans (h : p.Passes s x) : p.Spans s s x := by
  cases p with
  | done r => exact ⟨rfl, h⟩
  | call c next => exact Or.inl ⟨rfl, h⟩

theorem spans_start_end (p : Program α) (s : Store) : p.Spans s s (p.run s).2 :=
  (passes_end p s).spans

/-- What every call of a program keeps to, its run keeps to between any two moments. -/
theorem Every.spans {Q : Call → Prop} {T : Store → Store → Prop} (h : p.Every Q) (hT : Rely T)
    (keep : ∀ s c, Q c → T s (s.perform c).2) (hs : s.Filed) (hxy : p.Spans s x y) : T x y := by
  induction p generalizing s with
  | done r =>
    obtain ⟨rfl, rfl⟩ := hxy
    exact hT.refl _
  | call c next ih =>
    rcases hxy with ⟨rfl, hy⟩ | hxy
    · exact (Every.passes (I := T x) h (fun s c hi hc => hT.trans hi (keep s c hc)) hs
        (hT.refl x) hy).1
    · exact ih _ (h.2 _ (hs.admits c)) (hs.perform c) hxy

theorem spans_get_bind {k : Kind} {key : Key} {f : Option (Resource k) → Program β}
    {Q : Call → Prop} {T : Store → Store → Prop} (hT : Rely T)
    (keep : ∀ s c, Q c → T s (s.perform c).2) (hs : s.Filed) (hread : Q (.get k key))
    (h : (f (s.find? k key)).Every Q) (hxy : (Program.get k key >>= f).Spans s x y) : T x y := by
  let c := Call.get k key
  have hrest : ((done (s.perform c).1).bind f).Every Q := by
    rcases s.perform_eq c with he | ⟨e, l, he⟩ <;> rw [he]
    · exact h
    · trivial
  rcases hxy with ⟨rfl, rfl | hy⟩ | hxy
  · exact hT.refl _
  · refine (hrest.passes (I := T x) ?_ (hs.perform c) (keep x c hread) hy).1
    exact fun s c hi hc => hT.trans hi (keep s c hc)
  · exact hrest.spans hT keep (hs.perform c) hxy

theorem Within.makes (h : p.Within P) : p.Every (Call.Makes P N) := h.mono fun _ hc => Or.inl hc

theorem Within.discards (h : p.Within P) : p.Every (Call.Discards P N) :=
  h.mono fun _ hc => Or.inl hc

theorem makes_ensureCreated {k : Kind} {r : Resource k} (h : N k r.key) :
    (ensureCreated r).Every (Call.Makes P N) :=
  every_ensureCreated (Or.inr ⟨k, r, rfl, h⟩)

end Program
end TenantOperator
