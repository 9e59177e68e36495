import TenantOperator.Proofs.Store.Versions
import TenantOperator.Proofs.Tenancy.Resolved

/-! Programs among other writers. Before each call of a program the store may change in the ways it
relies on; each of its calls changes the store in the ways it guarantees, and where it ends well its
result fits the store of its last call. -/
namespace TenantOperator

/-- Changes of a store that add up and do not look at faults. -/
structure Rely (R : Store → Store → Prop) : Prop where
  faults (s : Store) (l : List PendingFault) : R s { s with faults := l }
  trans ⦃s₁ s₂ s₃ : Store⦄ : R s₁ s₂ → R s₂ s₃ → R s₁ s₃

theorem Rely.refl {R : Store → Store → Prop} (hR : Rely R) (s : Store) : R s s :=
  hR.faults s s.faults

theorem rely_agreeOff (P : Kind → Key → Prop) : Rely (Store.AgreeOff P) where
  faults s l k key _ := s.find?_setFaults l k key
  trans _ _ _ h h' := h.trans h'

/-- Others and a program took turns from `s` to `s'`. -/
structure Course (R G : Store → Store → Prop) (s s' : Store) : Prop where
  leads : s.Leads s'
  turns : Relation.ReflTransGen (fun s s' => R s s' ∨ G s s') s s'

namespace Course
variable {R G T : Store → Store → Prop} {s s₁ s' : Store}

theorem refl (s : Store) : Course R G s s := ⟨.refl s, .refl⟩

theorem trans (h : Course R G s s₁) (h' : Course R G s₁ s') : Course R G s s' :=
  ⟨h.leads.trans h'.leads, h.turns.trans h'.turns⟩

theorem others (hl : s.Leads s') (h : R s s') : Course R G s s' := ⟨hl, .single (Or.inl h)⟩

theorem own (c : Call) (h : G s (s.perform c).2) : Course R G s (s.perform c).2 :=
  ⟨(Store.Leads.refl s).perform c, .single (Or.inr h)⟩

theorem within (h : Course R G s s') (hT : Rely T) (hR : ∀ s s', R s s' → T s s')
    (hG : ∀ s s', G s s' → T s s') : T s s' := by
  obtain ⟨-, ht⟩ := h
  induction ht with
  | refl => exact hT.refl s
  | tail _ hstep ih => exact hT.trans ih (hstep.elim (hR _ _) (hG _ _))

end Course

/-- Others keep to `R` and a program to `G`, and all of it is `T`. -/
structure Around (R G T : Store → Store → Prop) : Prop where
  rely : Rely R
  total : Rely T
  others ⦃s s' : Store⦄ : R s s' → T s s'
  own ⦃s s' : Store⦄ : G s s' → T s s'
  faults (s : Store) (l : List PendingFault) : G s { s with faults := l }

theorem Around.course {R G T : Store → Store → Prop} (h : Around R G T) {s s' : Store}
    (hc : Course R G s s') : T s s' :=
  hc.within h.total (fun _ _ hr => h.others hr) fun _ _ hg => h.own hg

namespace Program
variable {α β : Type} {R R' G G' : Store → Store → Prop} {Q Q' : α → Store → Prop} {s : Store}

/-- The program waits for its next turn, and others may come first. -/
def Waits (R G : Store → Store → Prop) (Q : α → Store → Prop) : Program α → Store → Prop
  | .done (.ok a), s => Q a s
  | .done (.error _), _ => True
  | .call c next, s => ∀ s', s.Leads s' → R s s' →
      G s' (s'.perform c).2 ∧ (next (s'.perform c).1).Waits R G Q (s'.perform c).2

/-- It is the program's turn. -/
def Acts (R G : Store → Store → Prop) (Q : α → Store → Prop) : Program α → Store → Prop
  | .done (.ok a), s => Q a s
  | .done (.error _), _ => True
  | .call c next, s => G s (s.perform c).2 ∧ (next (s.perform c).1).Waits R G Q (s.perform c).2

theorem Waits.acts (hR : Rely R) {p : Program α} (h : p.Waits R G Q s) : p.Acts R G Q s := by
  cases p with
  | done r => cases r <;> exact h
  | call c next => exact h s (.refl s) (hR.refl s)

theorem waits_of_acts (hR : Rely R) {p : Program α}
    (h : ∀ s', s.Leads s' → R s s' → p.Acts R G Q s') : p.Waits R G Q s := by
  cases p with
  | done r =>
    have h := h s (.refl s) (hR.refl s)
    cases r <;> exact h
  | call c next => exact h

theorem Waits.mono {p : Program α} (h : p.Waits R G Q s) (hR : ∀ s s', R' s s' → R s s')
    (hG : ∀ s s', G s s' → G' s s') (hQ : ∀ a s, Q a s → Q' a s) : p.Waits R' G' Q' s := by
  induction p generalizing s with
  | done r =>
    cases r with
    | ok a => exact hQ a s h
    | error e => trivial
  | call c next ih =>
    intro s' hl hr
    obtain ⟨hg, hn⟩ := h s' hl (hR s s' hr)
    exact ⟨hG _ _ hg, ih _ hn⟩

theorem Waits.imp {p : Program α} (h : p.Waits R G Q s) (hQ : ∀ a s, Q a s → Q' a s) :
    p.Waits R G Q' s :=
  h.mono (fun _ _ hr => hr) (fun _ _ hg => hg) hQ

theorem Waits.later (hR : Rely R) {p : Program α} (h : p.Waits R G Q s) {s' : Store}
    (hl : s.Leads s') (hr : R s s') (hQ : ∀ a, Q a s → Q a s') : p.Waits R G Q s' := by
  cases p with
  | done r =>
    cases r with
    | ok a => exact hQ a h
    | error e => trivial
  | call c next => exact fun s'' hl' hr' => h s'' (hl.trans hl') (hR.trans hr hr')

theorem Acts.mono {p : Program α} (h : p.Acts R G Q s) (hR : ∀ s s', R' s s' → R s s')
    (hG : ∀ s s', G s s' → G' s s') (hQ : ∀ a s, Q a s → Q' a s) : p.Acts R' G' Q' s := by
  cases p with
  | done r =>
    cases r with
    | ok a => exact hQ a s h
    | error e => trivial
  | call c next => exact ⟨hG _ _ h.1, h.2.mono hR hG hQ⟩

theorem Acts.imp {p : Program α} (h : p.Acts R G Q s) (hQ : ∀ a s, Q a s → Q' a s) :
    p.Acts R G Q' s :=
  h.mono (fun _ _ hr => hr) (fun _ _ hg => hg) hQ

theorem waits_pure {a : α} (h : Q a s) : (pure a : Program α).Waits R G Q s := h

theorem waits_fail (e : Error) : (fail e : Program α).Waits R G Q s := trivial

theorem waits_bind {Q' : β → Store → Prop} {p : Program α} {f : α → Program β}
    (hp : p.Waits R G Q s)
    (hf : ∀ a s', Course R G s s' → Q a s' → (f a).Waits R G Q' s') :
    (p >>= f).Waits R G Q' s := by
  induction p generalizing s with
  | done r =>
    cases r with
    | ok a => exact hf a s (.refl s) hp
    | error e => trivial
  | call c next ih =>
    intro s' hl hr
    obtain ⟨hg, hn⟩ := hp s' hl hr
    refine ⟨hg, ih _ hn fun a s'' hc => hf a s'' ?_⟩
    exact (Course.others hl hr).trans ((Course.own c hg).trans hc)

theorem acts_bind (hR : Rely R) {Q' : β → Store → Prop} {p : Program α} {f : α → Program β}
    (hp : p.Acts R G Q s)
    (hf : ∀ a s', Course R G s s' → Q a s' → (f a).Waits R G Q' s') :
    (p >>= f).Acts R G Q' s := by
  cases p with
  | done r =>
    cases r with
    | ok a => exact (hf a s (.refl s) hp).acts hR
    | error e => trivial
  | call c next =>
    refine ⟨hp.1, waits_bind hp.2 fun a s' hc => hf a s' ?_⟩
    exact (Course.own c hp.1).trans hc

theorem Waits.course {p : Program α} (h : p.Waits R G Q s) :
    p.Waits R G (fun a s' => Q a s' ∧ Course R G s s') s := by
  have hbind : (p >>= pure).Waits R G (fun a s' => Q a s' ∧ Course R G s s') s :=
    waits_bind h fun a s' hc hq => waits_pure ⟨hq, hc⟩
  rwa [bind_pure] at hbind

theorem Waits.around {T : Store → Store → Prop} {p : Program α} (h : p.Waits R G Q s)
    (ha : Around R G T) : p.Waits R G (fun a s' => Q a s' ∧ T s s') s :=
  h.course.imp fun _ _ hq => ⟨hq.1, ha.course hq.2⟩

theorem acts_map (hR : Rely R) {Q : β → Store → Prop} {p : Program α} {f : α → β}
    (h : p.Acts R G (fun a => Q (f a)) s) : (f <$> p).Acts R G Q s :=
  acts_bind hR h fun _ _ _ hq => waits_pure hq

theorem acts_perform {c : Call} {Q : c.Answer → Store → Prop}
    (hf : ∀ l, G s { s with faults := l }) (hg : G s (s.answer c).2)
    (hq : ∀ a, (s.answer c).1 = .ok a → Q a (s.answer c).2) : (perform c).Acts R G Q s := by
  rcases s.perform_eq c with h | ⟨p, l, h⟩
  · refine ⟨by rwa [h], ?_⟩
    rw [h]
    cases ha : (s.answer c).1 with
    | ok a => exact hq a ha
    | error e => trivial
  · refine ⟨by rw [h]; exact hf l, ?_⟩
    rw [h]
    trivial

theorem acts_get (hf : ∀ l, G s { s with faults := l }) {k : Kind} {key : Key}
    {Q : Option (Resource k) → Store → Prop} (hq : Q (s.find? k key) s) :
    (Program.get k key).Acts R G Q s := by
  refine acts_perform hf (hf s.faults) fun a ha => ?_
  cases ha
  exact hq

theorem acts_list (hf : ∀ l, G s { s with faults := l }) {k : Kind} {ns : Option String}
    {labels : Labels} {Q : List (Resource k) → Store → Prop} (hq : Q (s.select k ns labels) s) :
    (Program.list k ns labels).Acts R G Q s := by
  refine acts_perform hf (hf s.faults) fun a ha => ?_
  cases ha
  exact hq

/-- A program that has all turns to itself. -/
theorem Acts.run (hR : Rely R) {p : Program α} (h : p.Acts R G Q s) :
    Course R G s (p.run s).2 := by
  induction p generalizing s with
  | done r => exact .refl s
  | call c next ih => exact (Course.own c h.1).trans (ih _ (h.2.acts hR))

/-- A program whose calls all keep to the guarantee. -/
theorem Every.waits {C : Call → Prop} {p : Program α} (h : p.Every C) (hs : s.Sound)
    (keep : ∀ s c, C c → G s (s.perform c).2) : p.Waits R G (fun _ _ => True) s := by
  induction p generalizing s with
  | done r => cases r <;> trivial
  | call c next ih =>
    intro s' hl _
    have hs' := hl.sound hs
    have hnext := ((Store.Leads.refl s').perform c).sound hs'
    exact ⟨keep s' c h.1, ih _ (h.2 _ (hs'.filed.admits c)) hnext⟩

theorem Within.waits {W : Kind → Key → Prop} {p : Program α} (h : p.Within W) (hs : s.Sound)
    (hG : ∀ s s', Store.AgreeOff W s s' → G s s') : p.Waits R G (fun _ _ => True) s :=
  Every.waits h hs fun s _ hc => hG s _ fun k key hk =>
    s.find?_perform_of_not_writes fun hw => hk (hc k key hw)

end Program
end TenantOperator
