import TenantOperator.Proofs.Store.Filed
import TenantOperator.Proofs.Tenancy.Lookups
import TenantOperator.Simulation.World

/-! What a simulated world keeps. Without interference an observed run is the plain one, with the
calls of its trace on record. With interference, whatever is handled in whatever order, the store
stays one that calls and faults lead to, as long as the other writers keep it so; what is proved of
such stores holds of every store that a simulation passes through. -/
namespace TenantOperator
namespace Simulation
open Program Store

/-- An action that leads from reached stores to reached stores. -/
def Action.Sound : Action → Prop
  | .change run => ∀ s : Store, s.Reached → (run s).2.Reached
  | .faults _ => True
  | .cancel => True

def Hook.Sound (h : Hook) : Prop := ∀ a ∈ h.actions, a.Sound

theorem mem_of_takeHook {c : Call} {hs : List Hook} {h : Hook} (ht : (takeHook c hs).1 = some h) :
    h ∈ hs := by
  induction hs with
  | nil => cases ht
  | cons g hs ih =>
    rw [takeHook] at ht
    split at ht
    · split at ht
      · cases ht
      · cases ht
        exact List.mem_cons_self
    · exact List.mem_cons_of_mem _ (ih ht)

theorem sound_takeHook {c : Call} {hs : List Hook} (h : ∀ g ∈ hs, g.Sound) :
    ∀ g ∈ (takeHook c hs).2, g.Sound := by
  induction hs with
  | nil => exact h
  | cons g hs ih =>
    obtain ⟨hg, hhs⟩ := List.forall_mem_cons.1 h
    rw [takeHook]
    split
    · split
      · exact List.forall_mem_cons.2 ⟨hg, hhs⟩
      · exact hhs
    · exact List.forall_mem_cons.2 ⟨hg, ih hhs⟩

namespace World

/-- The store is reached, and no hook that is left leads away from that. -/
structure Sound (w : World) : Prop where
  store : w.store.Reached
  hooks : ∀ h ∈ w.hooks, h.Sound

variable {w : World} {α : Type}

theorem Sound.act (h : w.Sound) {a : Action} (ha : a.Sound) : (w.act a).Sound := by
  cases a with
  | cancel => exact ⟨h.store, h.hooks⟩
  | faults l => exact ⟨h.store.faults l, h.hooks⟩
  | change run =>
    have hrun : (run w.store).2.Reached := ha w.store h.store
    rw [World.act]
    generalize run w.store = after at hrun
    obtain ⟨result, store⟩ := after
    cases result <;> exact ⟨hrun, h.hooks⟩

theorem Sound.foldl_act {l : List Action} (h : w.Sound) (hl : ∀ a ∈ l, a.Sound) :
    (l.foldl World.act w).Sound := by
  induction l generalizing w with
  | nil => exact h
  | cons a l ih =>
    obtain ⟨ha, hl⟩ := List.forall_mem_cons.1 hl
    exact ih (h.act ha) hl

theorem Sound.ask (h : w.Sound) (c : Call) : (w.ask c).Sound := by
  have hleft : ∀ g ∈ (takeHook c w.hooks).2, g.Sound := sound_takeHook h.hooks
  have htaken : ∀ g, (takeHook c w.hooks).1 = some g → g.Sound :=
    fun g hg => h.hooks g (mem_of_takeHook hg)
  rw [World.ask]
  dsimp only [World.record]
  generalize takeHook c w.hooks = taken at hleft htaken
  obtain ⟨_ | g, hooks⟩ := taken
  · exact ⟨h.store, hleft⟩
  · exact Sound.foldl_act ⟨h.store, hleft⟩ (htaken g rfl)

theorem Sound.observe (h : w.Sound) (p : Program α) : (World.observe p w).2.Sound := by
  induction p generalizing w with
  | done r => exact h
  | call c next ih =>
    have hask := h.ask c
    rw [World.observe]
    split
    · exact hask
    · exact ih _ ⟨hask.store.call c, hask.hooks⟩

variable (st : Settings) (c : RetryConfig)

theorem Sound.reconcile (h : w.Sound) (r : ReconcileRequest) :
    (World.reconcile st r w).2.Sound := by
  rw [World.reconcile]
  split
  · exact h
  · exact h.observe _

theorem Sound.retryFrom (r : ReconcileRequest) (fuel n : Nat) (h : w.Sound) :
    (TenantOperator.retryFrom c .steady World.cancelled (World.reconcile st r) fuel n
      w).state.Sound := by
  induction fuel generalizing n w with
  | zero => exact h
  | succ fuel ih =>
    have hr := h.reconcile st r
    rw [TenantOperator.retryFrom]
    generalize World.reconcile st r w = after at hr
    obtain ⟨result, w'⟩ := after
    dsimp only
    split
    · exact ih _ hr
    · exact hr

theorem Sound.firstAttempts {rs : List ReconcileRequest} (h : w.Sound) :
    (World.firstAttempts st c rs w).2.Sound := by
  induction rs generalizing w with
  | nil => exact h
  | cons r rs ih =>
    rw [World.firstAttempts]
    split
    · exact h
    · split
      · exact ih (h.retryFrom st c r _ 0)
      · exact ih (h.reconcile st r)

theorem Sound.further (h : w.Sound) (d : Handled) : (World.further st c d w).2.Sound := by
  rw [World.further]
  split
  · split
    · exact h.retryFrom st c d.request _ _
    · exact h
  · exact h

theorem Sound.furtherAttempts {l : List Handled} (h : w.Sound) :
    (World.furtherAttempts st c l w).2.Sound := by
  induction l generalizing w with
  | nil => exact h
  | cons d l ih => exact ih (h.further st c d)

/-- A stream of requests, retries and interference included, is handled over reached stores. -/
theorem Sound.handleAll (h : w.Sound) (rs : List ReconcileRequest) :
    (World.handleAll st c rs w).2.Sound :=
  (h.firstAttempts st c).furtherAttempts st c

/-- Without hooks a run that nobody cancels is the plain one. -/
theorem observe_of_unhooked (p : Program α) (hh : w.hooks = []) (hc : w.cancelled = false) :
    w.observe p = ((p.run w.store).1,
      { w with
        store := (p.run w.store).2
        events := ((p.trace w.store).map fun c => .called c.summary).reverse ++ w.events }) := by
  induction p generalizing w with
  | done r => rfl
  | call c next ih =>
    have hask : w.ask c = w.record (.called c.summary) := by
      rw [World.ask, World.record]
      dsimp only
      rw [hh, takeHook]
    have hcancelled : ¬(w.record (.called c.summary)).cancelled = true := by
      rw [World.record, hc]
      nofun
    rw [World.observe, hask]
    dsimp only
    rw [if_neg hcancelled]
    refine (ih (w.store.perform c).1
      (w := { w.record (.called c.summary) with store := (w.store.perform c).2 }) hh hc).trans ?_
    rw [trace, List.map_cons, List.reverse_cons, List.append_assoc]
    rfl

end World
end Simulation
end TenantOperator
