import TenantOperator.Proofs.Interruption.Resolver

/-! Reconciles that fail or are given up any number of times and then run to the end. They come to
the objects of a single undisturbed run, version for version; only the teardown of a pairing whose
tenant is gone may have spent more versions. -/
namespace TenantOperator
open Program Store

namespace Store

/-- The two stores have the same objects. -/
def Alike (s s' : Store) : Prop := ∀ k key, s'.find? k key = s.find? k key

namespace Alike
variable {s s₁ s' : Store}

theorem refl (s : Store) : s.Alike s := fun _ _ => rfl

theorem trans (h : s.Alike s₁) (h' : s₁.Alike s') : s.Alike s' :=
  fun k key => (h' k key).trans (h k key)

theorem symm (h : s.Alike s') : s'.Alike s := fun k key => (h k key).symm

theorem remove (h : s.Alike s') (k : Kind) (key : Key) :
    (s.remove k key).Alike (s'.remove k key) := by
  intro l key'
  by_cases hl : l = k ∧ key' = key
  · obtain ⟨rfl, rfl⟩ := hl
    rw [find?_remove_self, find?_remove_self]
  · rw [find?_remove_of_ne _ hl, find?_remove_of_ne _ hl, h]

end Alike

/-- The children under a key carry the same tenant label. -/
def Matched (s : Store) (key : Key) : Prop :=
  ∀ d sv, s.find? .deployment key = some d → s.find? .service key = some sv →
    Teardown.tenantOf d = Teardown.tenantOf sv

end Store

namespace Teardown
variable (st : Settings) {s x : Store} {ns name tenant : String}

theorem find?_afterSync_gone (h : s.find? .tenant (.inSpace ns tenant) = none) {k : Kind}
    {key : Key} (hk : Bundle.Shared ns tenant k key) :
    (afterSync st s ns tenant).find? k key = none := by
  have hnot : ¬(s.find? .tenant (.inSpace ns tenant)).isSome := by rw [h]; simp
  rw [afterSync, if_neg hnot]
  rcases hk with ⟨rfl, rfl⟩ | ⟨rfl, rfl⟩
  · rw [find?_remove_of_ne _ (by simp), find?_remove_self]
  · exact find?_remove_self ..

theorem alike_afterSync_gone (h : s.find? .tenant (.inSpace ns tenant) = none)
    (ha : AgreeOff (Bundle.Shared ns tenant) s x) :
    (afterSync st x ns tenant).Alike (afterSync st s ns tenant) := by
  have hx : x.find? .tenant (.inSpace ns tenant) = none := by
    rw [ha _ _ (by simp [Bundle.Shared]), h]
  intro k key
  by_cases hk : Bundle.Shared ns tenant k key
  · rw [find?_afterSync_gone st h hk, find?_afterSync_gone st hx hk]
  · rw [agreeOff_afterSync st ns tenant s k key hk, agreeOff_afterSync st ns tenant x k key hk,
      ha k key hk]

theorem alike_afterSync (hs : s.Calm) (hx : (syncTenant st ns tenant).Passes s x) :
    (afterSync st x ns tenant).Alike (afterSync st s ns tenant) := by
  have ha := (within_syncTenant st ns tenant).passes hs.filed hx
  cases halive : s.find? .tenant (.inSpace ns tenant) with
  | none => exact alike_afterSync_gone st halive ha
  | some t =>
    have hs₁ : (s.find? .tenant (.inSpace ns tenant)).isSome := by rw [halive]; rfl
    have hx₁ : (x.find? .tenant (.inSpace ns tenant)).isSome := by
      rwa [ha _ _ (by simp [Bundle.Shared])]
    rw [afterSync, afterSync, if_pos hs₁, if_pos hx₁, synced_of_passes st hs hs₁ hx]
    exact .refl _

theorem alike_afterSync_done (ha : AgreeOff (Children ns name) (afterSync st s ns tenant) x) :
    (afterSync st x ns tenant).Alike x := by
  have htenant : x.find? .tenant (.inSpace ns tenant) = s.find? .tenant (.inSpace ns tenant) := by
    rw [ha _ _ (by simp [Children]),
      agreeOff_afterSync st ns tenant s _ _ (by simp [Bundle.Shared])]
  cases halive : s.find? .tenant (.inSpace ns tenant) with
  | none =>
    intro k key
    by_cases hk : Bundle.Shared ns tenant k key
    · have hchild : ¬Children ns name k key := by
        rcases hk with ⟨rfl, rfl⟩ | ⟨rfl, rfl⟩ <;> simp [Children]
      rw [find?_afterSync_gone st (htenant.trans halive) hk, ha k key hchild,
        find?_afterSync_gone st halive hk]
    · exact (agreeOff_afterSync st ns tenant x k key hk).symm
  | some t =>
    have hs₁ : (s.find? .tenant (.inSpace ns tenant)).isSome := by rw [halive]; rfl
    have hx₁ : (x.find? .tenant (.inSpace ns tenant)).isSome := by rwa [htenant]
    rw [afterSync, if_pos hs₁] at ha
    have hset := settled_of_children st ns name tenant ha
    rw [afterSync, if_pos hx₁, synced_of_settled st ns tenant hset]
    exact .refl x

theorem passes_clearPairing (hs : s.Calm) (hx : (clearPairing st ns name tenant).Passes s x) :
    (syncTenant st ns tenant).Passes s x ∨
      x = (afterSync st s ns tenant).remove .deployment (.inSpace ns name) ∨
      x = cleared st ns name tenant s := by
  obtain ⟨b, hb⟩ := run_syncTenant_afterSync st ns tenant hs
  have hs₁ := calm_afterSync st ns tenant hs
  have hend := passes_end (syncTenant st ns tenant) s
  rw [hb] at hend
  rcases passes_bind.1 hx with hx | ⟨b', s₁, hb', hx⟩
  · exact Or.inl hx
  cases hb.symm.trans hb'
  rcases passes_bind.1 hx with hx | ⟨d, s₂, hd, hx⟩
  · rcases passes_delete hs₁ hx with rfl | rfl
    · exact Or.inl hend
    · exact Or.inr (Or.inl rfl)
  cases (hs₁.run_delete ..).symm.trans hd
  right
  exact passes_delete (hs₁.remove ..) (passes_bind_done (fun _ => ⟨_, rfl⟩) hx)

theorem within_clearPairing (ns name tenant : String) :
    (clearPairing st ns name tenant).Within fun k key =>
      Bundle.Shared ns tenant k key ∨ Children ns name k key := by
  refine every_bind ((within_syncTenant st ns tenant).imp fun _ _ => Or.inl) fun _ => ?_
  refine every_bind ((within_delete .deployment (.inSpace ns name)).imp fun k key h =>
    Or.inr ⟨Or.inl h.1, h.2⟩) fun _ => ?_
  exact every_bind ((within_delete .service (.inSpace ns name)).imp fun k key h =>
    Or.inr ⟨Or.inr h.1, h.2⟩) fun _ => trivial

theorem told_congr {key : Key} (hd : x.find? .deployment key = s.find? .deployment key)
    (hv : x.find? .service key = s.find? .service key) : told x key = told s key := by
  rw [told, hd, hv, told]

theorem told_of_service {key : Key} (hm : s.Matched key) (ht : told s key = some tenant)
    (hd : x.find? .deployment key = none) (hv : x.find? .service key = s.find? .service key) :
    x.find? .service key = none ∧ told x key = none ∨ told x key = some tenant := by
  cases hsv : s.find? .service key with
  | none =>
    rw [hsv] at hv
    exact Or.inl ⟨hv, by rw [told, hd, hv]; rfl⟩
  | some sv =>
    right
    rw [hsv] at hv
    rw [told, hsv] at ht
    rw [told, hd, hv]
    cases hds : s.find? .deployment key with
    | none => rwa [hds] at ht
    | some d =>
      rw [hds, Option.bind_some, Option.bind_some, hm d sv hds hsv, Option.or_self] at ht
      exact ht

theorem matched_of_no_deployment {key : Key} (hd : s.find? .deployment key = none) :
    s.Matched key := by
  intro d sv h
  rw [hd] at h
  cases h

theorem alike_of_passes_clearPairing (hs : s.Calm) (hm : s.Matched (.inSpace ns name))
    (ht : told s (.inSpace ns name) = some tenant)
    (hx : (clearPairing st ns name tenant).Passes s x) :
    x.Matched (.inSpace ns name) ∧
      ((told x (.inSpace ns name)).elim x fun t => cleared st ns name t x).Alike
        (cleared st ns name tenant s) := by
  rcases passes_clearPairing st hs hx with hx | rfl | rfl
  · -- The children are all there.
    have ha := (within_syncTenant st ns tenant).passes hs.filed hx
    have hd := ha .deployment (.inSpace ns name) (by simp [Bundle.Shared])
    have hv := ha .service (.inSpace ns name) (by simp [Bundle.Shared])
    refine ⟨fun d sv h h' => hm d sv (hd ▸ h) (hv ▸ h'), ?_⟩
    rw [told_congr hd hv, ht]
    exact ((alike_afterSync st hs hx).remove _ _).remove _ _
  · -- Only the Service is left, if there was one.
    have hd := (afterSync st s ns tenant).find?_remove_self .deployment (.inSpace ns name)
    have hv : ((afterSync st s ns tenant).remove .deployment (.inSpace ns name)).find? .service
        (.inSpace ns name) = s.find? .service (.inSpace ns name) := by
      rw [find?_remove_of_ne _ (by simp),
        agreeOff_afterSync st ns tenant s _ _ (by simp [Bundle.Shared])]
    refine ⟨matched_of_no_deployment hd, ?_⟩
    rcases told_of_service hm ht hd hv with ⟨hsv, hnone⟩ | hsome
    · rw [hnone, cleared, remove_of_find?_eq_none hsv]
      exact .refl _
    · rw [hsome]
      have hoff : AgreeOff (Children ns name) (afterSync st s ns tenant)
          ((afterSync st s ns tenant).remove .deployment (.inSpace ns name)) :=
        ((afterSync st s ns tenant).agreeOff_remove .deployment (.inSpace ns name)).mono
          fun k key h => ⟨Or.inl h.1, h.2⟩
      have hdone := alike_afterSync_done st hoff
      have hcleared := (hdone.remove .deployment (.inSpace ns name)).remove .service
        (.inSpace ns name)
      rwa [remove_of_find?_eq_none hd] at hcleared
  · have hd := find?_cleared st ns name tenant (s := s) (Or.inl rfl)
    refine ⟨matched_of_no_deployment hd, ?_⟩
    rw [told_cleared]
    exact .refl _

end Teardown

namespace Reconcile
variable (st : Settings) {s x : Store} {ns name : String}

theorem passes_pairing_gone (hs : s.Calm) (hp : s.find? .pairing (.inSpace ns name) = none)
    (hx : (pairing st ns (.inSpace ns name)).Passes s x) :
    x = s ∨ ∃ t, Teardown.told s (.inSpace ns name) = some t ∧
      (Teardown.clearPairing st ns name t).Passes s x := by
  rw [pairing_eq] at hx
  rcases passes_read_bind hs (reads_get ..) hx with rfl | ⟨p, hp', hx⟩
  · exact Or.inl rfl
  obtain rfl : p = none := (run_get_ok hp').1.symm.trans hp
  replace hx : (Teardown.pairing st ns name none).Passes s x :=
    passes_bind_done (fun _ => ⟨_, rfl⟩) hx
  rcases passes_bind.1 hx with hx | ⟨t, s₁, ht, hx⟩
  · exact Or.inl (passes_of_reads hs (reads_pairingTenant _) hx)
  cases (Teardown.rests_pairingTenant hs _).symm.trans ht
  cases htold : Teardown.told s (.inSpace ns name) with
  | none =>
    rw [htold] at hx
    exact Or.inl hx
  | some t =>
    rw [htold] at hx
    exact Or.inr ⟨t, rfl, hx⟩

/-- Wherever the reconcile of a pairing that is gone is left, another one brings the same objects
about. -/
theorem alike_of_passes_pairing_gone (hs : s.Calm) (hm : s.Matched (.inSpace ns name))
    (hp : s.find? .pairing (.inSpace ns name) = none)
    (hx : (pairing st ns (.inSpace ns name)).Passes s x) :
    x.Matched (.inSpace ns name) ∧ x.find? .pairing (.inSpace ns name) = none ∧
      ∃ y y', (pairing st ns (.inSpace ns name)).run s = (.ok .tornDown, y) ∧
        (pairing st ns (.inSpace ns name)).run x = (.ok .tornDown, y') ∧ y'.Alike y := by
  have hrun := run_pairing_gone st hs hp
  rcases passes_pairing_gone st hs hp hx with rfl | ⟨t, ht, hclear⟩
  · exact ⟨hm, hp, _, _, hrun, hrun, .refl _⟩
  · obtain ⟨hmatched, halike⟩ := Teardown.alike_of_passes_clearPairing st hs hm ht hclear
    have hgone : x.find? .pairing (.inSpace ns name) = none := by
      rw [(Teardown.within_clearPairing st ns name t).passes hs.filed hclear _ _
        (by simp [Bundle.Shared, Teardown.Children]), hp]
    rw [ht] at hrun
    exact ⟨hmatched, hgone, _, _, hrun, run_pairing_gone st (hx.calm hs) hgone, halike⟩

end Reconcile

namespace ReconcileRequest

/-- The request is one of an instance, of an entity that exists, or of a pairing; and the children
of a pairing that is gone agree on their tenant. -/
def Repeatable (r : ReconcileRequest) (s : Store) : Prop :=
  match r.kind with
  | .inst => True
  | .tenant => (s.find? .tenant r.key).isSome
  | .microservice => (s.find? .microservice r.key).isSome
  | .pairing => s.find? .pairing r.key = none → s.Matched r.key

variable (st : Settings) {s x t' : Store} {o : Outcome} {r : ReconcileRequest}

open Reconcile

theorem alike_of_resumes (hs : s.Calm) (hx : (reconcile st r).Passes s x)
    (hres : (reconcile st r).Resumes s)
    (hrest : ∀ {s s' : Store} {o : Outcome}, s.Calm → (reconcile st r).run s = (.ok o, s') →
      (reconcile st r).Rests s' o) (hr : (reconcile st r).run x = (.ok o, t')) :
    ∃ t, (reconcile st r).run s = (.ok o, t) ∧ t.Alike t' := by
  obtain ⟨o', ho⟩ := hres hx hr
  -- Both runs end in one store, and a third run tells that they report the same.
  cases (hrest hs ho).symm.trans (hrest (hx.calm hs) hr)
  exact ⟨t', ho, .refl _⟩

/-- The reconcile of a pairing, be it there or gone. -/
theorem repeatable_of_passes_pairing {ns name : String} (hs : s.Calm)
    (h : Repeatable ⟨.pairing, .inSpace ns name⟩ s)
    (hx : (reconcile st ⟨.pairing, .inSpace ns name⟩).Passes s x) :
    Repeatable ⟨.pairing, .inSpace ns name⟩ x ∧ ∀ o t',
      (reconcile st ⟨.pairing, .inSpace ns name⟩).run x = (.ok o, t') →
        ∃ t, (reconcile st ⟨.pairing, .inSpace ns name⟩).run s = (.ok o, t) ∧ t.Alike t' := by
  cases hp : s.find? .pairing (.inSpace ns name) with
  | some p =>
    have hkept : x.find? .pairing (.inSpace ns name) = some p :=
      find?_of_passes_pairing_live st hs hp hx
    refine ⟨fun hgone => ?_, fun o t' hr => alike_of_resumes st hs hx
      (resumes_pairing_live st hs ns hp) (fun hs h => rests_pairing st hs h) hr⟩
    cases hkept.symm.trans hgone
  | none =>
    obtain ⟨hmatched, -, y, y', hy, hy', halike⟩ := alike_of_passes_pairing_gone st hs (h hp) hp hx
    refine ⟨fun _ => hmatched, fun o t' hr => ?_⟩
    cases hy'.symm.trans hr
    exact ⟨y, hy, halike.symm⟩

theorem Repeatable.passes (h : r.Repeatable s) (hs : s.Calm) (hx : (reconcile st r).Passes s x) :
    r.Repeatable x ∧ ∀ o t', (reconcile st r).run x = (.ok o, t') →
      ∃ t, (reconcile st r).run s = (.ok o, t) ∧ t.Alike t' := by
  obtain ⟨kind, name, ns⟩ := r
  cases kind with
  | inst =>
    exact ⟨trivial, fun o t' hr => alike_of_resumes st hs hx (resumes_inst hs _)
      (fun hs h => rests_inst hs h) hr⟩
  | tenant =>
    cases ns with
    | none =>
      cases hx
      exact ⟨h, fun o t' hr => by cases hr⟩
    | some ns =>
      obtain ⟨t, ht⟩ := Option.isSome_iff_exists.1 h
      have hkept := find?_of_passes_tenant_live st hs ht hx
      exact ⟨Option.isSome_iff_exists.2 ⟨t, hkept⟩, fun o t' hr =>
        alike_of_resumes st hs hx (resumes_tenant_live st hs ht)
          (fun hs h => rests_tenant st hs h) hr⟩
  | microservice =>
    cases ns with
    | none =>
      cases hx
      exact ⟨h, fun o t' hr => by cases hr⟩
    | some ns =>
      obtain ⟨m, hm⟩ := Option.isSome_iff_exists.1 h
      have hkept := find?_of_passes_microservice_live st hs hm hx
      exact ⟨Option.isSome_iff_exists.2 ⟨m, hkept⟩, fun o t' hr =>
        alike_of_resumes st hs hx (resumes_microservice_live st hs hm)
          (fun hs h => rests_microservice st hs h) hr⟩
  | pairing =>
    cases ns with
    | none =>
      cases hx
      exact ⟨h, fun o t' hr => by cases hr⟩
    | some ns => exact repeatable_of_passes_pairing st hs h hx

end ReconcileRequest

/-- A reconcile that failed or was given up any number of times, at any calls, and then runs to its
end leaves the objects that a single undisturbed run leaves, and that run ends well, too. -/
theorem run_reconcile_of_interrupted (st : Settings) {r : ReconcileRequest} {s s' t' : Store}
    {o : Outcome} (hs : s.Reached) (hf : s.faults = []) (hr : r.Repeatable s)
    (hi : Relation.ReflTransGen (fun a b => ∃ q, (reconcile st r).Falters a q b) s s')
    (h : (reconcile st r).run s' = (.ok o, t')) :
    ∃ t, (reconcile st r).run s = (.ok o, t) ∧ t.Alike t' := by
  have hc : s.Calm := ⟨hs.filed, hf⟩
  clear hs hf
  induction hi using Relation.ReflTransGen.head_induction_on with
  | refl => exact ⟨t', h, .refl t'⟩
  | head hstep _ ih =>
    obtain ⟨q, hq⟩ := hstep
    have hx := (steadfast_reconcile st r hc hq).1
    obtain ⟨hr', hrun⟩ := hr.passes st hc hx
    obtain ⟨t₁, h₁, ha₁⟩ := ih hr' (hx.calm hc)
    obtain ⟨t, ht, ha⟩ := hrun o t₁ h₁
    exact ⟨t, ht, ha.trans ha₁⟩

section leftOff

def joined : Store := (Matrix.declared.perform (.create .tenant (Matrix.bareTenant "a"))).2

/-- The reconcile of `c` is left when one of the two pairings is made. -/
def leftOff : Store :=
  ((reconcile {} ⟨.microservice, .inSpace "dc1" "c"⟩).steps 6 joined).2

example :
    (leftOff.find? .pairing (.inSpace "dc1" "tms-a-b-c")).isSome ∧
      leftOff.find? .pairing (.inSpace "dc1" "tms-a-c") = none :=
  ⟨rfl, rfl⟩

/-- It makes the other one when it runs again. -/
theorem run_reconcile_leftOff : joined.Reached ∧
    ReconcileRequest.Repeatable ⟨.microservice, .inSpace "dc1" "c"⟩ joined ∧
      ∃ t, (reconcile {} ⟨.microservice, .inSpace "dc1" "c"⟩).run joined = (.ok .converged, t) ∧
        t.Alike ((reconcile {} ⟨.microservice, .inSpace "dc1" "c"⟩).run leftOff).2 := by
  have hs : joined.Reached := Matrix.reached_declared.call (.create .tenant (Matrix.bareTenant "a"))
  have hr : ReconcileRequest.Repeatable ⟨.microservice, .inSpace "dc1" "c"⟩ joined := rfl
  exact ⟨hs, hr, run_reconcile_of_interrupted {} hs rfl hr
    (.single ⟨_, Program.falters_steps 6 _ joined⟩) rfl⟩

end leftOff

end TenantOperator
