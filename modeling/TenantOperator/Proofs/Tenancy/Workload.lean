import TenantOperator.Proofs.Store.Calm
import TenantOperator.Tenancy.Workload

/-! Children of a pairing. Once they were synthesized, synthesizing them again makes nothing. -/
namespace TenantOperator
namespace Workload
open Program Store

variable {s s' : Store}

theorem run_parent_ok {k : Kind} {key : Key} {e : Error} {r : Resource k}
    (h : (parent k key e).run s = (.ok r, s')) : s.find? k key = some r ∧ s' = s := by
  rw [parent, run_bind_ok] at h
  obtain ⟨a, s₁, ha, h⟩ := h
  obtain ⟨hf, rfl⟩ := run_get_ok ha
  cases a with
  | none => cases h
  | some a =>
    cases h
    exact ⟨hf, rfl⟩

theorem rests_parent {k : Kind} {key : Key} {e : Error} {r : Resource k} (hs : s.Calm)
    (h : s.find? k key = some r) : (parent k key e).Rests s r :=
  Rests.bind (hs.rests_get h) rfl

/-- There is a Deployment of the pairing's name, or the names of both children are taken. -/
def Ready (s : Store) (p : Pairing) : Prop :=
  ∃ ns, p.metadata.ns = some ns ∧
    ((s.find? .deployment (.inSpace ns p.name)).isSome ∨
      ∃ t m i, s.find? .tenant (.inSpace ns p.content.tenantId) = some t ∧
        s.find? .microservice (.inSpace ns p.content.microserviceId) = some m ∧
        s.find? .inst (.clusterWide ns) = some i ∧
        (s.find? .service (service i t m).key).isSome ∧
        (s.find? .deployment (deployment i t m).key).isSome)

theorem Ready.congr {p : Pairing} (h : Ready s p)
    (ha : AgreeOff (fun k _ => k = .configMap ∨ k = .ingress) s s') : Ready s' p := by
  obtain ⟨ns, hns, h⟩ := h
  refine ⟨ns, hns, ?_⟩
  rcases h with hd | ⟨t, m, i, ht, hm, hi, hsv, hd⟩
  · left
    rwa [ha _ _ (by simp)]
  · right
    refine ⟨t, m, i, ?_, ?_, ?_, ?_, ?_⟩ <;> rwa [ha _ _ (by simp)]

theorem run_synthesize_ok {p : Pairing} {x : Synthesis}
    (h : (synthesize p).run s = (.ok x, s')) :
    Ready s' p ∧ AgreeOff (fun k _ => k = .service ∨ k = .deployment) s s' ∧
      (s.Calm → s'.Calm) := by
  unfold synthesize at h
  split at h
  · cases h
  · rename_i ns hns
    rw [run_bind_ok] at h
    obtain ⟨d, s₀, hd, h⟩ := h
    obtain ⟨hfd, rfl⟩ := run_get_ok hd
    cases d with
    | some d =>
      cases h
      exact ⟨⟨ns, hns, Or.inl (by rw [hfd]; rfl)⟩, .refl _ _, id⟩
    | none =>
      dsimp only at h
      rw [run_bind_ok] at h
      obtain ⟨t, s₁, ht, h⟩ := h
      obtain ⟨hft, rfl⟩ := run_parent_ok ht
      rw [run_bind_ok] at h
      obtain ⟨m, s₂, hm, h⟩ := h
      obtain ⟨hfm, rfl⟩ := run_parent_ok hm
      rw [run_bind_ok] at h
      obtain ⟨i, s₃, hi, h⟩ := h
      obtain ⟨hfi, rfl⟩ := run_parent_ok hi
      rw [run_bind_ok] at h
      obtain ⟨b, s₄, hsv, h⟩ := h
      obtain ⟨-, rfl⟩ := run_ensureCreated_ok (n := Naming.pairing t.name m.name) rfl hsv
      rw [run_bind_ok] at h
      obtain ⟨c, s₅, hdp, h⟩ := h
      obtain ⟨-, rfl⟩ := run_ensureCreated_ok (n := Naming.pairing t.name m.name) rfl hdp
      cases h
      have ha : AgreeOff (fun k _ => k = .service ∨ k = .deployment) s₃
          ((s₃.ensured (service i t m)).ensured (deployment i t m)) := by
        refine ((s₃.agreeOff_ensured _).mono ?_).trans ((agreeOff_ensured _ _).mono ?_)
        · exact fun k key hk => Or.inl hk.1
        · exact fun k key hk => Or.inr hk.1
      refine ⟨⟨ns, hns, Or.inr ⟨t, m, i, ?_, ?_, ?_, ?_, ?_⟩⟩, ha, fun hs => ?_⟩
      · rwa [ha _ _ (by simp)]
      · rwa [ha _ _ (by simp)]
      · rwa [ha _ _ (by simp)]
      · rw [agreeOff_ensured _ _ _ _ (by simp)]
        exact isSome_find?_ensured ..
      · exact isSome_find?_ensured ..
      · exact (hs.ensured _).ensured _

theorem rests_synthesize {p : Pairing} (hs : s.Calm) (h : Ready s p) :
    ∃ x, (synthesize p).Rests s x := by
  obtain ⟨ns, hns, h⟩ := h
  simp only [synthesize, hns]
  cases hd : s.find? .deployment (.inSpace ns p.name) with
  | some d => exact ⟨.existing, Rests.bind (hs.rests_get hd) rfl⟩
  | none =>
    rcases h with h | ⟨t, m, i, ht, hm, hi, hsv, hdp⟩
    · simp [hd] at h
    · have h₁ := hs.rests_ensureCreated (n := Naming.pairing t.name m.name) rfl hsv
      have h₂ := hs.rests_ensureCreated (n := Naming.pairing t.name m.name) rfl hdp
      exact ⟨.created, Rests.bind (hs.rests_get hd) <| Rests.bind (rests_parent hs ht) <|
        Rests.bind (rests_parent hs hm) <| Rests.bind (rests_parent hs hi) <|
        Rests.bind h₁ <| Rests.bind h₂ rfl⟩

end Workload
end TenantOperator
