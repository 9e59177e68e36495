import TenantOperator.Proofs.Interleaving.Waits
import TenantOperator.Proofs.Tenancy.Entries
import TenantOperator.Proofs.Tenancy.Matrix

/-! Bundles without dead keys. Changes are sorted by what they leave of the areas that a tenant's
pairings use: one microservice may lose an excused area or go, and what is in use otherwise stays in
use. Such a change keeps the bundle clean if it enters nothing that is not in use. -/
namespace TenantOperator
open Store

/-- Every key of the bundle is an area in use, or it is excused. -/
def Store.Clean (ns tenant : String) (X : String → Prop) (s : Store) : Prop :=
  ∀ area, (Bundle.entries s ns tenant).contains area → area ∈ s.areas ns tenant ∨ X area

/-- The microservice `m` loses no area but an excused one, and once it is gone it stays so. Nothing
else that is in use goes. -/
structure Store.Steady (ns m : String) (X : String → Prop) (s s' : Store) : Prop where
  shaped : s.Shaped → s'.Shaped
  tenants : ∀ key, s'.find? .tenant key = s.find? .tenant key
  others : ∀ key, key ≠ .inSpace ns m → s'.find? .microservice key = s.find? .microservice key
  gone : s.find? .microservice (.inSpace ns m) = none →
    s'.find? .microservice (.inSpace ns m) = none
  settled : ∀ r, s.find? .microservice (.inSpace ns m) = some r → ¬X r.content.functionalArea →
    s'.find? .microservice (.inSpace ns m) = some r
  pairings : ∀ key p, s.find? .pairing key = some p →
    (s'.find? .microservice (.inSpace ns p.content.microserviceId)).isSome →
      s'.find? .pairing key = some p

/-- A steady change that keeps the bundle clean. -/
structure Store.Kept (ns tenant m : String) (X : String → Prop) (s s' : Store) : Prop extends
    Steady ns m X s s' where
  clean : Clean ns tenant X s → Clean ns tenant X s'

/-- A change that keeps all microservices as they are. -/
structure Store.Mild (ns tenant m : String) (X : String → Prop) (s s' : Store) : Prop extends
    Kept ns tenant m X s s' where
  sameMicroservices : ∀ key, s'.find? .microservice key = s.find? .microservice key

/-- A change that keeps all pairings as they are, too. -/
structure Store.Quiet (ns tenant m : String) (X : String → Prop) (s s' : Store) : Prop extends
    Mild ns tenant m X s s' where
  samePairings : ∀ key, s'.find? .pairing key = s.find? .pairing key

namespace Store
variable {ns tenant m : String} {X : String → Prop} {s s₁ s' : Store}

theorem Steady.isSome_back (h : Steady ns m X s s') {id : String}
    (hid : (s'.find? .microservice (.inSpace ns id)).isSome) :
    (s.find? .microservice (.inSpace ns id)).isSome := by
  by_cases hm : id = m
  · subst hm
    cases hs : s.find? .microservice (.inSpace ns id) with
    | none => simp [h.gone hs] at hid
    | some r => rfl
  · rwa [h.others _ fun he => hm (Key.inSpace_inj.1 he).2] at hid

theorem Steady.trans (h : Steady ns m X s s₁) (h' : Steady ns m X s₁ s') : Steady ns m X s s' where
  shaped hs := h'.shaped (h.shaped hs)
  tenants key := (h'.tenants key).trans (h.tenants key)
  others key hk := (h'.others key hk).trans (h.others key hk)
  gone hg := h'.gone (h.gone hg)
  settled r hr hx := h'.settled r (h.settled r hr hx) hx
  pairings key p hp hm := h'.pairings key p (h.pairings key p hp (h'.isSome_back hm)) hm

theorem Steady.find?_of_notExcused (h : Steady ns m X s s') {id : String} {r : Microservice}
    (hr : s.find? .microservice (.inSpace ns id) = some r) (hx : ¬X r.content.functionalArea) :
    s'.find? .microservice (.inSpace ns id) = some r := by
  by_cases hid : id = m
  · subst hid
    exact h.settled r hr hx
  · rwa [h.others _ fun he => hid (Key.inSpace_inj.1 he).2]

theorem Steady.areas (h : Steady ns m X s s') {area : String} (ha : area ∈ s.areas ns tenant) :
    area ∈ s'.areas ns tenant ∨ X area := by
  by_cases hx : X area
  · exact Or.inr hx
  left
  obtain ⟨p, hp, r, hr, rfl⟩ := mem_areas.1 ha
  have hr' := h.find?_of_notExcused hr hx
  obtain ⟨key, hf, hpick⟩ := mem_select.1 hp
  have hf' := h.pairings key p hf (by rw [hr']; rfl)
  exact mem_areas.2 ⟨p, mem_select.2 ⟨key, hf', hpick⟩, r, hr', rfl⟩

theorem Steady.clean (h : Steady ns m X s s')
    (he : ∀ area, (Bundle.entries s' ns tenant).contains area →
      (Bundle.entries s ns tenant).contains area ∨ area ∈ s'.areas ns tenant ∨ X area)
    (hc : Clean ns tenant X s) : Clean ns tenant X s' := by
  intro area ha
  rcases he area ha with hold | hnew
  · exact (hc area hold).elim h.areas Or.inr
  · exact hnew

theorem Steady.kept (h : Steady ns m X s s')
    (hb : s'.find? .configMap (Bundle.tenantKey ns tenant) =
      s.find? .configMap (Bundle.tenantKey ns tenant)) : Kept ns tenant m X s s' :=
  ⟨h, h.clean fun area ha => Or.inl (by rwa [Bundle.entries_congr hb] at ha)⟩

theorem Steady.of_microservice (hs : s.Shaped → s'.Shaped)
    (ht : ∀ key, s'.find? .tenant key = s.find? .tenant key)
    (hm : ∀ key, s'.find? .microservice key = s.find? .microservice key)
    (hp : ∀ key p, s.find? .pairing key = some p →
      (s'.find? .microservice (.inSpace ns p.content.microserviceId)).isSome →
        s'.find? .pairing key = some p) : Steady ns m X s s' where
  shaped := hs
  tenants := ht
  others key _ := hm key
  gone h := (hm _).trans h
  settled _ hr _ := (hm _).trans hr
  pairings := hp

theorem rely_kept : Rely (Kept ns tenant m X) where
  faults s l := by
    have hsame (k : Kind) (key : Key) := s.find?_setFaults l k key
    refine (Steady.of_microservice (fun hs key p hp => ?_) (hsame _) (hsame _)
      fun key p hp _ => ?_).kept (hsame _ _)
    · rw [hsame] at hp
      exact hs hp
    · rwa [hsame]
  trans _ _ _ h h' := ⟨h.toSteady.trans h'.toSteady, fun hc => h'.clean (h.clean hc)⟩

theorem rely_mild : Rely (Mild ns tenant m X) where
  faults s l := ⟨rely_kept.faults s l, fun _ => s.find?_setFaults l _ _⟩
  trans _ _ _ h h' := ⟨rely_kept.trans h.toKept h'.toKept, fun key =>
    (h'.sameMicroservices key).trans (h.sameMicroservices key)⟩

theorem rely_quiet : Rely (Quiet ns tenant m X) where
  faults s l := ⟨rely_mild.faults s l, fun _ => s.find?_setFaults l _ _⟩
  trans _ _ _ h h' := ⟨rely_mild.trans h.toMild h'.toMild, fun key =>
    (h'.samePairings key).trans (h.samePairings key)⟩

theorem Quiet.of_same (ht : ∀ key, s'.find? .tenant key = s.find? .tenant key)
    (hm : ∀ key, s'.find? .microservice key = s.find? .microservice key)
    (hp : ∀ key, s'.find? .pairing key = s.find? .pairing key)
    (he : ∀ area, (Bundle.entries s' ns tenant).contains area →
      (Bundle.entries s ns tenant).contains area ∨ area ∈ s'.areas ns tenant ∨ X area) :
    Quiet ns tenant m X s s' := by
  have hsteady : Steady ns m X s s' := by
    refine .of_microservice (fun hs key p h => ?_) ht hm fun key p h _ => ?_
    · rw [hp] at h
      exact hs h
    · rwa [hp]
  exact ⟨⟨⟨hsteady, hsteady.clean he⟩, hm⟩, hp⟩

theorem Quiet.of_agreeOff {W : Kind → Key → Prop} (h : AgreeOff W s s')
    (ht : ∀ key, ¬W .tenant key) (hm : ∀ key, ¬W .microservice key)
    (hp : ∀ key, ¬W .pairing key) (hb : ¬W .configMap (Bundle.tenantKey ns tenant)) :
    Quiet ns tenant m X s s' :=
  .of_same (fun _ => h _ _ (ht _)) (fun _ => h _ _ (hm _)) (fun _ => h _ _ (hp _)) fun area ha =>
    Or.inl (by rwa [Bundle.entries_congr (h _ _ hb)] at ha)

/-- A write of the bundle whose new keys are in use or excused. -/
theorem Quiet.of_bundle {change : Option ConfigMap → Option ConfigMap} (s : Store)
    (he : ∀ area, (Bundle.entries (s.upserted (Bundle.tenantKey ns tenant) change) ns
      tenant).contains area → (Bundle.entries s ns tenant).contains area ∨
        area ∈ s.areas ns tenant ∨ X area) :
    Quiet ns tenant m X s (s.upserted (Bundle.tenantKey ns tenant) change) := by
  have h := s.agreeOff_upserted (Bundle.tenantKey ns tenant) change
  have hareas : (s.upserted (Bundle.tenantKey ns tenant) change).areas ns tenant =
      s.areas ns tenant := by rw [areas, areas, h.resolved_eq (by simp) (by simp)]
  refine .of_same (fun _ => h _ _ (by simp)) (fun _ => h _ _ (by simp))
    (fun _ => h _ _ (by simp)) ?_
  rwa [hareas]

end Store

end TenantOperator
