import Mathlib.Data.List.Induction
import TenantOperator.Proofs.Frame.Footprint
import TenantOperator.Proofs.Interleaving.Discard
import TenantOperator.Proofs.Interleaving.Entry
import TenantOperator.Proofs.Quiescence.Convergence

/-! Reconciles among others. Whatever else happens, each turn of a reconcile stays within what its
request may touch; so what is made once is never altered as long as others leave it alone. -/
namespace TenantOperator
open Program Store

def Call.EditsTemplates (c : Call) : Prop :=
  ∀ k key, c.Writes k key → k = .instTemplate ∨ k = .microserviceTemplate

theorem Call.EditsTemplates.find?_eq {c : Call} (h : c.EditsTemplates) (s : Store) {k : Kind}
    {key : Key} (hk : k.MadeOnce key) : (s.answer c).2.find? k key = s.find? k key := by
  refine s.find?_answer_of_not_writes fun hw => ?_
  rcases h k key hw with rfl | rfl <;> simp [Kind.MadeOnce] at hk

theorem Reconcile.every_touches (st : Settings) (r : ReconcileRequest) :
    (reconcile st r).Every fun c => ∀ s : Store, r.Touches s (s.perform c).2 := by
  rcases reconcile_cases st r with ⟨e, he⟩ | ⟨k, f, he, hf⟩ <;> rw [he]
  · trivial
  · obtain ⟨Q, T, -, hread, hkeep, htouch, -⟩ := hf none trivial
    refine every_perform_bind (fun s => ?_) fun a ha => ?_
    · exact htouch _ _ (hkeep s _ (hread _ (Call.reads_get _ _)))
    · obtain ⟨Q, T, -, -, hkeep, htouch, hQ⟩ := hf a ha
      exact hQ.mono fun c hc s => htouch _ _ (hkeep s c hc)

namespace Pool
variable {ι : Type} [DecidableEq ι] {P : Pool ι Outcome} {requests : ι → ReconcileRequest}

/-- Every run is a reconcile of its request at its start. -/
def Begins (P : Pool ι Outcome) (requests : ι → ReconcileRequest) : Prop :=
  ∀ i, ∃ st, P.runs i = reconcile st (requests i)

theorem touches_step (hs : P.store.Filed) (h : P.Begins requests) (es : List (Event ι)) (i : ι) :
    (requests i).Touches (P.exec es).store ((P.exec es).step (.run i)).store := by
  obtain ⟨st, hst⟩ := h i
  have hevery := every_exec (i := i) hs (hst ▸ Reconcile.every_touches st (requests i)) es
  cases hi : (P.exec es).runs i with
  | done r =>
    rw [step_run_of_done hi]
    exact ⟨fun _ _ _ => rfl, fun _ _ _ _ _ ha hb => Option.some.inj (hb.symm.trans ha),
      fun _ _ _ _ ha => ha,
      fun _ _ _ _ ha hb hne => absurd (Option.some.inj (hb.symm.trans ha)) hne,
      fun _ _ hne => absurd rfl hne⟩
  | call c next =>
    rw [hi] at hevery
    rw [store_step_run hi]
    exact hevery.1 _

theorem find?_step (hs : P.store.Filed) (h : P.Begins requests) (es : List (Event ι)) {e : Event ι}
    (he : ∀ c, e = .call c → c.EditsTemplates) {k : Kind} {key : Key} (hk : k.MadeOnce key)
    {a : Resource k} (ha : (P.exec es).store.find? k key = some a) :
    (P.exec (es ++ [e])).store.find? k key = some a ∨
      (P.exec (es ++ [e])).store.find? k key = none := by
  rw [exec_concat]
  cases e with
  | call c => exact Or.inl (((he c rfl).find?_eq _ hk).trans ha)
  | run i =>
    cases hb : ((P.exec es).step (.run i)).store.find? k key with
    | none => exact Or.inr rfl
    | some b =>
      rw [(touches_step hs h es i).unchanged k key a b hk ha hb]
      exact Or.inl rfl

/-- What is made once stays as it was made until it goes. -/
theorem find?_of_madeOnce (hs : P.store.Filed) (h : P.Begins requests)
    {before after : List (Event ι)} (hcall : ∀ c, .call c ∈ after → c.EditsTemplates) {k : Kind}
    {key : Key} (hk : k.MadeOnce key) {a : Resource k}
    (ha : (P.exec before).store.find? k key = some a) :
    (P.exec (before ++ after)).store.find? k key = some a ∨ ∃ mid rest, after = mid ++ rest ∧
      (P.exec (before ++ mid)).store.find? k key = none := by
  induction after using List.reverseRecOn with
  | nil => exact Or.inl (by rwa [List.append_nil])
  | append_singleton after e ih =>
    rcases ih fun c hc => hcall c (by simp [hc]) with hsome | ⟨mid, rest, rfl, hnone⟩
    · rw [← List.append_assoc]
      refine (find?_step hs h _ (fun c hc => hcall c (by simp [hc])) hk hsome).imp_right
        fun hn => ?_
      exact ⟨after ++ [e], [], by simp, by rwa [← List.append_assoc]⟩
    · exact Or.inr ⟨mid, rest ++ [e], by simp, hnone⟩

theorem find?_of_lasting (hs : P.store.Filed) (h : P.Begins requests)
    {before after : List (Event ι)} (hcall : ∀ c, .call c ∈ after → c.EditsTemplates)
    {inst : String} {b : ConfigMap}
    (hb : (P.exec before).store.find? .configMap (Bundle.instanceKey inst) = some b) :
    (P.exec (before ++ after)).store.find? .configMap (Bundle.instanceKey inst) = some b := by
  have hk : Kind.configMap.MadeOnce (Bundle.instanceKey inst) := by simp [Kind.MadeOnce]
  induction after using List.reverseRecOn with
  | nil => rwa [List.append_nil]
  | append_singleton after e ih =>
    have hrest := ih fun c hc => hcall c (by simp [hc])
    rw [← List.append_assoc, exec_concat]
    cases e with
    | call c => exact ((hcall c (by simp)).find?_eq _ hk).trans hrest
    | run i => exact (touches_step hs h _ i).lasting _ _ b (Or.inr ⟨inst, rfl, rfl⟩) hrest

end Pool

/-- Between any two moments of a reconcile, whatever faults it meets, and at each of its turns among
others, the store changes as the request may touch it. While reconciles take turns and only
templates are edited, a pairing stays as it was made until it goes, and an instance's bundle stays
as it was made. -/
theorem reconcile_footprint {s : Store} (hs : s.Reached) :
    (∀ st r x y, (reconcile st r).Spans s x y → r.Touches x y) ∧
    ∀ (ι : Type) [DecidableEq ι] (P : Pool ι Outcome) (requests : ι → ReconcileRequest),
      P.store = s → P.Begins requests →
      (∀ es i, (requests i).Touches (P.exec es).store ((P.exec es).step (.run i)).store) ∧
      ∀ before after, (∀ c, .call c ∈ after → c.EditsTemplates) →
        (∀ k key a, k.MadeOnce key → (P.exec before).store.find? k key = some a →
          (P.exec (before ++ after)).store.find? k key = some a ∨ ∃ mid rest, after = mid ++ rest ∧
            (P.exec (before ++ mid)).store.find? k key = none) ∧
        ∀ inst b, (P.exec before).store.find? .configMap (Bundle.instanceKey inst) = some b →
          (P.exec (before ++ after)).store.find? .configMap (Bundle.instanceKey inst) = some b := by
  refine ⟨fun st r x y h => Reconcile.touches_of_spans st hs.filed h, ?_⟩
  rintro ι _ P requests rfl hbegin
  refine ⟨Pool.touches_step hs.filed hbegin, fun before after hcall => ⟨?_, ?_⟩⟩
  · exact fun k key a hk ha => Pool.find?_of_madeOnce hs.filed hbegin hcall hk ha
  · exact fun inst b hb => Pool.find?_of_lasting hs.filed hbegin hcall hb

section founding

def founded : Store := (Pool.staffed.perform (.create .instTemplate Backlog.bareInstanceTemplate)).2

theorem reached_founded : founded.Reached := .call _ Pool.reached_staffed

def instanceOfDc1 : ReconcileRequest := ⟨.inst, .clusterWide "dc1"⟩

def dropTemplate : Call := .delete .instTemplate (.clusterWide "base")

/-- The instance is reconciled, its template goes, and it is reconciled once more. -/
theorem reconcile_footprint_founded :
    let P : Pool Bool Outcome := Pool.ofRequests {} (fun _ => instanceOfDc1) founded
    let before : List (Event Bool) := List.replicate 5 (.run false)
    let after : List (Event Bool) := .call dropTemplate :: List.replicate 3 (.run true)
    instanceOfDc1.Touches founded ((reconcile {} instanceOfDc1).run founded).2 ∧
      ∃ b, (P.exec before).store.find? .configMap (Bundle.instanceKey "dc1") = some b ∧
        (P.exec (before ++ after)).store.find? .configMap (Bundle.instanceKey "dc1") = some b := by
  intro P before after
  obtain ⟨htouch, hpool⟩ := reconcile_footprint reached_founded
  obtain ⟨-, hedits⟩ := hpool Bool P (fun _ => instanceOfDc1) rfl fun _ => ⟨{}, rfl⟩
  have hcall : ∀ c, .call c ∈ after → c.EditsTemplates := by
    rintro c hc
    obtain rfl : c = dropTemplate := by simpa [after] using hc
    rintro k key hw
    exact Or.inl (Call.writes_delete_only hw).1
  obtain ⟨b, hb⟩ : ∃ b,
      (P.exec before).store.find? .configMap (Bundle.instanceKey "dc1") = some b := ⟨_, rfl⟩
  exact ⟨htouch _ _ _ _ (spans_start_end ..), b, hb, (hedits before after hcall).2 _ b hb⟩

end founding

end TenantOperator
