import TenantOperator.Proofs.Interleaving.Cleaning
import TenantOperator.Proofs.Interleaving.Discard
import TenantOperator.Proofs.Interleaving.Entry

/-! The reconcile of a pairing while its microservice changes. The microservice's own reconcile
makes the bundle clean, but a reconcile of the pairing that read the area before the change and is
still going on may enter it again afterwards, and nothing that follows takes it out. -/
namespace TenantOperator
open Program Store

/-- The pairing of a living tenant with the microservice, among pairings that are as they are made.
-/
structure Store.Paired (ns tenant m : String) (key : Key) (s : Store) : Prop where
  sound : s.Sound
  shaped : s.Shaped
  alive : (s.find? .tenant (.inSpace ns tenant)).isSome
  stored : ∃ p, s.find? .pairing key = some p ∧ p.content.tenantId = tenant ∧
    p.content.microserviceId = m

def Call.Changes (ns m : String) (c : Call) : Prop :=
  c = .delete .microservice (.inSpace ns m) ∨
    ∃ r : Microservice, r.key = .inSpace ns m ∧ c = .update .microservice r

section change
variable {ns tenant m : String} {X : String → Prop} {key : Key} {s s' : Store}

theorem Store.Paired.later (h : s.Paired ns tenant m key) (hl : s.Leads s')
    (hk : Kept ns tenant m X s s') (hp : s'.find? .pairing key = s.find? .pairing key) :
    s'.Paired ns tenant m key where
  sound := hl.sound h.sound
  shaped := hk.shaped h.shaped
  alive := by rw [hk.tenants]; exact h.alive
  stored := by rw [hp]; exact h.stored

theorem Store.Paired.gone (h : s.Paired ns tenant m key) (hk : Kept ns tenant m X s s')
    (hn : s'.find? .pairing key = none) : s'.find? .microservice (.inSpace ns m) = none := by
  obtain ⟨p, hp, -, hid⟩ := h.stored
  cases hr : s'.find? .microservice (.inSpace ns m) with
  | none => rfl
  | some r =>
    have hp' := hk.pairings key p hp (by rw [hid, hr]; rfl)
    rw [hn] at hp'
    cases hp'

theorem Call.Changes.agreeOff {c : Call} (h : c.Changes ns m) (s : Store) :
    AgreeOff (fun k key => k = .microservice ∧ key = .inSpace ns m) s (s.answer c).2 := by
  intro k key hk
  refine s.find?_answer_of_not_writes fun hw => hk ?_
  rcases h with rfl | ⟨r, hr, rfl⟩
  · exact Call.writes_delete_only hw
  · exact (Call.writes_puts hr).2 k key hw

theorem Call.Changes.kept {c : Call} (h : c.Changes ns m) {r : Microservice}
    (hr : s.find? .microservice (.inSpace ns m) = some r) :
    Kept ns tenant m (· = r.content.functionalArea) s (s.answer c).2 := by
  have hoff := h.agreeOff s
  have hsteady : Steady ns m (· = r.content.functionalArea) s (s.answer c).2 :=
    { shaped := fun hs key p hp => hs (by rwa [hoff _ _ (by simp)] at hp)
      tenants := fun _ => hoff _ _ (by simp)
      others := fun _ hk => hoff _ _ (by simp [hk])
      gone := fun hg => by rw [hr] at hg; cases hg
      settled := fun r' hr' hx => by
        rw [hr] at hr'
        cases hr'
        exact absurd rfl hx
      pairings := fun _ p hp _ => by rwa [hoff _ _ (by simp)] }
  exact hsteady.kept (hoff _ _ (by simp))

end change

namespace Pool
variable (st : Settings) {ns tenant m name : String} {X : String → Prop} {P : Pool Bool Outcome}

def racing (ns name m : String) : Bool → ReconcileRequest
  | false => ⟨.pairing, .inSpace ns name⟩
  | true => ⟨.microservice, .inSpace ns m⟩

def racingRely (ns tenant m : String) (X : String → Prop) : Bool → Store → Store → Prop
  | false => Kept ns tenant m X
  | true => Quiet ns tenant m X

def racingEffect (ns tenant m : String) (X : String → Prop) : Bool → Store → Store → Prop
  | false => Quiet ns tenant m X
  | true => Mild ns tenant m X

def racingResult (ns tenant : String) (X : String → Prop) : Bool → Outcome → Store → Prop
  | false => fun _ _ => True
  | true => fun _ => Clean ns tenant X

/-- The reconcile of the pairing enters no area but an excused one, or it has not begun. -/
def Started (st : Settings) (ns tenant m name : String) (X : String → Prop)
    (P : Pool Bool Outcome) : Prop :=
  Waiting (racingRely ns tenant m X false) (racingEffect ns tenant m X false)
      (racingResult ns tenant X false) P false ∨
    P.runs false = Reconcile.pairing st ns (.inSpace ns name)

theorem started_of_done {x : Except Error Outcome} (h : P.runs false = .done x) :
    Started st ns tenant m name X P :=
  Or.inl (waiting_of_done rely_kept h fun _ _ => trivial)

variable {st}

theorem Started.step (hs : Started st ns tenant m name X P)
    (h : P.store.Paired ns tenant m (.inSpace ns name)) :
    Quiet ns tenant m X P.store (P.step (.run false)).store ∧
      Started st ns tenant m name X (P.step (.run false)) := by
  rcases hs with hw | hu
  · exact ⟨hw.guarantee rely_quiet fun _ _ h => h, Or.inl (hw.step_self rely_kept)⟩
  · have hacts : (P.runs false).Acts (racingRely ns tenant m X false)
        (racingEffect ns tenant m X false) (racingResult ns tenant X false) P.store := by
      rw [hu]
      exact Cleaning.acts_pairing st h.sound h.shaped h.alive rfl
        (h.gone (rely_kept (X := X).refl _))
    exact ⟨guarantee_of_acts rely_quiet (fun _ _ h => h) hacts,
      Or.inl (waiting_of_acts rely_kept hacts)⟩

theorem Started.exec (hs : Started st ns tenant m name X P)
    (h : P.store.Paired ns tenant m (.inSpace ns name)) {es : List (Event Bool)}
    (hes : ∀ e ∈ es, e = .run false) :
    (P.exec es).store.Paired ns tenant m (.inSpace ns name) ∧
      Quiet ns tenant m X P.store (P.exec es).store ∧
        Started st ns tenant m name X (P.exec es) := by
  induction es generalizing P with
  | nil => exact ⟨h, rely_quiet.refl _, hs⟩
  | cons e es ih =>
    obtain rfl := hes e List.mem_cons_self
    obtain ⟨hq, hs₁⟩ := hs.step h
    have h₁ := h.later (leads_step P _) hq.toKept (hq.samePairings _)
    obtain ⟨h₂, hq₂, hs₂⟩ := ih hs₁ h₁ fun e he => hes e (List.mem_cons_of_mem _ he)
    exact ⟨h₂, rely_quiet.trans hq hq₂, hs₂⟩

/-- When the reconcile of the microservice has ended well, the bundle is clean, however the
pairing's reconcile takes its turns. -/
theorem Started.clean (hs : Started st ns tenant m name X P)
    (h : P.store.Paired ns tenant m (.inSpace ns name))
    (hm : P.runs true = Reconcile.microservice st ns (.inSpace ns m)) {after : List (Event Bool)}
    (hafter : ∀ c, .call c ∉ after) {P' : Pool Bool Outcome}
    (hP : P.exec (.run true :: after) = P') {o : Outcome} (hok : P'.runs true = .done (.ok o)) :
    Mild ns tenant m X P.store P'.store ∧ Clean ns tenant X P'.store := by
  obtain ⟨p, hp, ht, hid⟩ := h.stored
  have hrely : ∀ i, Rely (racingRely ns tenant m X i) := by
    rintro (_ | _)
    · exact rely_kept
    · exact rely_quiet
  have heffect : ∀ i s s', racingEffect ns tenant m X i s s' →
      Mild ns tenant m X s s' ∧ ∀ j, j ≠ i → racingRely ns tenant m X j s s' := by
    rintro (_ | _) s s' hg
    · refine ⟨hg.toMild, fun j hj => ?_⟩
      obtain rfl : j = true := by simpa using hj
      exact hg
    · refine ⟨hg, fun j hj => ?_⟩
      obtain rfl : j = false := by simpa using hj
      exact hg.toKept
  have hexec := waiting_exec (P := P) (R := racingRely ns tenant m X)
    (G := racingEffect ns tenant m X) (Q := racingResult ns tenant X) (.run true :: after) hrely
    rely_mild heffect
    (fun c hc => absurd hc (by simp [hafter])) fun i before' after' he hbefore hmild => by
      have hsound := (leads_exec P before').sound h.sound
      cases i with
      | true =>
        -- Its first turn comes first.
        obtain rfl : [] = before' := before_unique (by simp) hbefore he
        refine Or.inr ?_
        rw [hm]
        exact Cleaning.acts_microservice st h.sound h.shaped h.alive rfl hp ht hid
      | false =>
        refine hs.imp id fun hu => ?_
        rw [hu]
        refine Cleaning.acts_pairing st hsound (hmild.shaped h.shaped) ?_ rfl (h.gone hmild.toKept)
        rw [hmild.tenants]
        exact h.alive
  rw [hP] at hexec
  obtain ⟨hmild, hwait⟩ := hexec
  obtain ⟨s₁, -, hquiet, hclean⟩ := (hwait true (Or.inr (by simp))).result hok
  exact ⟨hmild, hquiet.clean hclean⟩

/-- The pairing is reconciled once more if it is gone. -/
def reconcileGone (st : Settings) (ns name : String) (s : Store) : Store :=
  if (s.find? .pairing (.inSpace ns name)).isSome then s
  else ((reconcile st ⟨.pairing, .inSpace ns name⟩).run s).2

theorem clean_reconcileGone {s s' : Store} (h : s.Paired ns tenant m (.inSpace ns name))
    (hl : s.Leads s') (hmild : Mild ns tenant m X s s') (hclean : Clean ns tenant X s') :
    Clean ns tenant X (reconcileGone st ns name s') := by
  rw [reconcileGone]
  split
  · exact hclean
  · rename_i hn
    have hnone : s'.find? .pairing (.inSpace ns name) = none := by simpa using hn
    have halive : (s'.find? .tenant (.inSpace ns tenant)).isSome := by
      rw [hmild.tenants]
      exact h.alive
    have hacts := Cleaning.acts_pairing_gone st (X := X) (hl.sound h.sound) halive hnone
      (h.gone hmild.toKept hnone)
    exact (Cleaning.around_kept.course (hacts.run rely_kept)).clean hclean

/-- The pairing's reconcile takes turns before the change and after it. It may enter the area of
before, unless it begins after the change, and the microservice's reconcile has not begun. -/
theorem started_of_change {s : Store} (h : s.Paired ns tenant m (.inSpace ns name))
    {r : Microservice} (hr : s.find? .microservice (.inSpace ns m) = some r) {change : Call}
    (hchange : change.Changes ns m) {before between : List (Event Bool)}
    (hbefore : ∀ e ∈ before, e = .run false) (hbetween : ∀ e ∈ between, e = .run false)
    (hP : (ofRequests st (racing ns name m) s).exec (before ++ .call change :: between) = P) :
    P.store.Paired ns tenant m (.inSpace ns name) ∧
      P.runs true = Reconcile.microservice st ns (.inSpace ns m) ∧
        Started st ns tenant m name (· = r.content.functionalArea) P ∧
          (.run false ∉ before → Started st ns tenant m name (fun _ => False) P) := by
  -- The pool right before and right after the change.
  obtain ⟨P₁, hP₁⟩ : ∃ P₁, (ofRequests st (racing ns name m) s).exec before = P₁ := ⟨_, rfl⟩
  obtain ⟨P₂, hP₂⟩ : ∃ P₂, P₁.step (.call change) = P₂ := ⟨_, rfl⟩
  have hrest : P₂.exec between = P := by
    rw [← hP, exec_append, hP₁, ← hP₂]
    rfl
  have hold : Started st ns tenant m name (· = r.content.functionalArea)
      (ofRequests st (racing ns name m) s) := Or.inr rfl
  obtain ⟨h₁, hq₁, hs₁⟩ := hold.exec h hbefore
  rw [hP₁] at h₁ hq₁ hs₁
  have hkept : Kept ns tenant m (· = r.content.functionalArea) P₁.store
      (P₁.store.answer change).2 := hchange.kept (by rwa [hq₁.sameMicroservices])
  have h₂ : P₂.store.Paired ns tenant m (.inSpace ns name) := by
    rw [← hP₂]
    exact h₁.later (leads_step P₁ _) hkept (hchange.agreeOff P₁.store _ _ (by simp))
  have hs₂ : Started st ns tenant m name (· = r.content.functionalArea) P₂ := by
    rw [← hP₂]
    exact hs₁.imp (·.step_other rely_kept (by simp) hkept) id
  obtain ⟨h₃, -, hs₃⟩ := hs₂.exec h₂ hbetween
  rw [hrest] at h₃ hs₃
  refine ⟨h₃, ?_, hs₃, fun hlate => ?_⟩
  · rw [← hP, runs_exec_of_notMem]
    · rfl
    · rintro hmem
      rcases List.mem_append.1 hmem with hmem | hmem
      · cases hbefore _ hmem
      · cases hbetween _ (by simpa using hmem)
  · have hunbegun : Started st ns tenant m name (fun _ => False) P₂ := by
      refine Or.inr ?_
      rw [← hP₂, ← hP₁]
      exact runs_exec_of_notMem hlate
    rw [← hrest]
    exact (hunbegun.exec h₂ hbetween).2.2

/-- A pairing of a living tenant is reconciled, its microservice is deleted or edited meanwhile and
then reconciled, both ended well, and the pairing is reconciled once more if it is gone. Then every
key of the bundle is an area in use, except possibly the area that the microservice had before: and
that only if the pairing's reconcile began before the change and was not over when the other began.
-/
theorem mem_areas_of_contains (st : Settings) {s : Store} (hs : s.Reached) (hshape : s.Shaped)
    {ns tenant name m : String} (halive : (s.find? .tenant (.inSpace ns tenant)).isSome)
    {p : Pairing} (hp : s.find? .pairing (.inSpace ns name) = some p)
    (ht : p.content.tenantId = tenant) (hid : p.content.microserviceId = m) {r : Microservice}
    (hr : s.find? .microservice (.inSpace ns m) = some r) {change : Call}
    (hchange : change.Changes ns m) {before between after : List (Event Bool)}
    (hbefore : ∀ e ∈ before, e = .run false) (hbetween : ∀ e ∈ between, e = .run false)
    (hafter : ∀ c, .call c ∉ after) {P P' : Pool Bool Outcome}
    (hP : (ofRequests st (racing ns name m) s).exec (before ++ .call change :: between) = P)
    (hP' : P.exec (.run true :: after) = P') (hok : ∀ i, ∃ o, P'.runs i = .done (.ok o))
    {area : String}
    (harea : (Bundle.entries (reconcileGone st ns name P'.store) ns tenant).contains area) :
    area ∈ (reconcileGone st ns name P'.store).areas ns tenant ∨
      area = r.content.functionalArea ∧ .run false ∈ before ∧ ∀ x, P.runs false ≠ .done x := by
  have h₀ : s.Paired ns tenant m (.inSpace ns name) := ⟨hs.sound, hshape, halive, p, hp, ht, hid⟩
  obtain ⟨h, hm, hold, hnew⟩ := started_of_change h₀ hr hchange hbefore hbetween hP
  have hclean {X : String → Prop} (hstart : Started st ns tenant m name X P) :
      Clean ns tenant X (reconcileGone st ns name P'.store) := by
    obtain ⟨o, ho⟩ := hok true
    obtain ⟨hmild, hclean⟩ := hstart.clean h hm hafter hP' ho
    refine clean_reconcileGone h ?_ hmild hclean
    rw [← hP']
    exact leads_exec P _
  by_cases hlate : .run false ∈ before ∧ ∀ x, P.runs false ≠ .done x
  · exact (hclean hold area harea).imp id fun h => ⟨h, hlate⟩
  · -- Nothing needs to be excused.
    have hnone : Started st ns tenant m name (fun _ => False) P := by
      by_cases hmem : .run false ∈ before
      · obtain ⟨x, hx⟩ : ∃ x, P.runs false = .done x := by simpa [hmem] using hlate
        exact started_of_done st hx
      · exact hnew hmem
    exact Or.inl ((hclean hnone area harea).resolve_right id)

section overlap

def paired : Store := (staffed.answer newPairing).2

theorem reached_paired : paired.Reached := .call _ reached_staffed

theorem shaped_paired : paired.Shaped := by
  intro key p hp
  rcases eq_of_find?_create hp with hold | rfl
  · cases hold
  · exact Pairing.shaped_forPair ..

def pairedWithC : Bool → ReconcileRequest := racing "dc1" (Naming.pairing "a" "c") "c"

/-- The microservice moves to another area. -/
def moveC : Call :=
  .update .microservice { Matrix.bareMicroservice "c" with
    content := { (Matrix.bareMicroservice "c").content with functionalArea := "d" } }

def dropC : Call := .delete .microservice (.inSpace "dc1" "c")

/-- The pairing's reconcile has read the area when it changes, and goes on right after that. -/
def overBefore : Pool Bool Outcome :=
  (ofRequests {} pairedWithC paired).exec
    (List.replicate 10 (.run false) ++ .call moveC :: List.replicate 6 (.run false))

/-- It goes on when the microservice's reconcile is over. -/
def onceMore : List (Event Bool) :=
  List.replicate 10 (.run false) ++ .call dropC ::
    (List.replicate 11 (.run true) ++ List.replicate 4 (.run false))

/-- The bundle has an entry for the new area in the end, and that area is in use. -/
theorem mem_areas_overBefore :
    "d" ∈ (reconcileGone {} "dc1" (Naming.pairing "a" "c")
      (overBefore.exec (List.replicate 17 (.run true))).store).areas "dc1" "a" := by
  have hok : ∀ i, ∃ o, (overBefore.exec (List.replicate 17 (.run true))).runs i =
      .done (.ok o) := by
    intro i
    cases i <;> exact ⟨.converged, rfl⟩
  have hcall : ∀ c : Call, .call c ∉ List.replicate 16 (Event.run true) := by simp
  have halive : (paired.find? .tenant (.inSpace "dc1" "a")).isSome := rfl
  have hp : paired.find? .pairing (.inSpace "dc1" (Naming.pairing "a" "c")) =
      some ((Pairing.forPair "dc1" "a" "c" .empty).withVersion (some "6")) := rfl
  have hr : paired.find? .microservice (.inSpace "dc1" "c") =
      some ((Matrix.bareMicroservice "c").withVersion (some "3")) := rfl
  have hchange : moveC.Changes "dc1" "c" := Or.inr ⟨_, rfl, rfl⟩
  have hover : overBefore.runs false = .done (.ok .converged) := rfl
  have hentry : (Bundle.entries (reconcileGone {} "dc1" (Naming.pairing "a" "c")
      (overBefore.exec (List.replicate 17 (.run true))).store) "dc1" "a").contains "d" := rfl
  have hmem := mem_areas_of_contains {} reached_paired shaped_paired halive hp rfl rfl hr hchange
    (fun e he => List.eq_of_mem_replicate he) (fun e he => List.eq_of_mem_replicate he) hcall
    (P := overBefore) rfl rfl hok hentry
  exact hmem.resolve_right fun h => h.2.2 _ hover

/-- A reconcile of a pairing enters the area of a microservice that was deleted since, after the
teardown; and when the pairing is reconciled once more, it has no children that tell its tenant. -/
theorem not_forall_mem_areas :
    ¬∀ (st : Settings) (s : Store) (ns tenant name m : String) (p : Pairing) (r : Microservice)
      (change : Call) (es es' : List (Event Bool)), s.Reached → s.faults = [] → s.Shaped →
      (s.find? .tenant (.inSpace ns tenant)).isSome →
      s.find? .pairing (.inSpace ns name) = some p → p.content.tenantId = tenant →
      p.content.microserviceId = m → s.find? .microservice (.inSpace ns m) = some r →
      (change = .delete .microservice (.inSpace ns m) ∨ ∃ area, change = .update .microservice
        { r with content := { r.content with functionalArea := area } }) →
      (∀ c, .call c ∉ es ++ es') → .run true ∉ es →
      (∀ i, ∃ o, ((ofRequests st (racing ns name m) s).exec
        (es ++ .call change :: es')).runs i = .done (.ok o)) →
      ∀ area, (Bundle.entries (reconcileGone st ns name ((ofRequests st (racing ns name m) s).exec
          (es ++ .call change :: es')).store) ns tenant).contains area →
        area ∈ (reconcileGone st ns name ((ofRequests st (racing ns name m) s).exec
          (es ++ .call change :: es')).store).areas ns tenant := by
  intro h
  have hok : ∀ i, ∃ o, ((ofRequests {} pairedWithC paired).exec onceMore).runs i =
      .done (.ok o) := by
    intro i
    cases i with
    | false => exact ⟨.converged, rfl⟩
    | true => exact ⟨.tornDown, rfl⟩
  have hin := h {} paired "dc1" "a" (Naming.pairing "a" "c") "c" _ _ dropC
    (List.replicate 10 (.run false)) _ reached_paired rfl shaped_paired rfl rfl rfl rfl rfl
    (Or.inl rfl) (by simp) (by simp) hok "c" rfl
  cases hin

end overlap

end Pool
end TenantOperator
