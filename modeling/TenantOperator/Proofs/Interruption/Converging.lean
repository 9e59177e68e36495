import TenantOperator.Proofs.Interruption.Resumes

/-! What a reconcile does for an entity that is there resumes wherever it is left. -/
namespace TenantOperator
open Program Store

variable {s x : Store} {k : Kind}

theorem resumes_ensureCreated (hs : s.Calm) {r : Resource k} {m : String}
    (hn : r.metadata.name = some m) : (ensureCreated r).Resumes s := by
  refine resumes_of_ends fun x hx => ?_
  rcases passes_ensureCreated hs hn hx with rfl | rfl
  · exact Or.inl rfl
  · exact Or.inr ⟨⟨_, hs.run_ensureCreated hn⟩, _,
      (hs.ensured r).rests_ensureCreated hn (isSome_find?_ensured s r)⟩

namespace Reconcile
variable {key : Key}

def bundle (key : Key) (i : Instance) : Program Outcome := do
  match ← Program.get .configMap (Bundle.instanceKey key.name) with
  | some _ => return .converged
  | none =>
    let template ← getRequired .instTemplate (.clusterWide i.content.configurationId)
    let _ ← Bundle.ensureInstance key.name template.content.configuration
    return .converged

/-- What the reconcile of an instance does with one that is there. -/
def made (key : Key) (i : Instance) : Program Outcome :=
  Program.ofExcept i.content.validate >>= fun _ =>
    ensureCreated (space key.name) >>= fun _ => bundle key i

theorem inst_eq (key : Key) : inst key = Program.get .inst key >>= fun
    | none => pure .ignored
    | some i => made key i := rfl

theorem passes_bundle (hs : s.Calm) {i : Instance} (hx : (bundle key i).Passes s x) :
    x = s ∨ ∃ c, x = s.ensured (Bundle.ofInstance key.name c) ∧
      (bundle key i).run s = (.ok .converged, x) := by
  rcases passes_read_bind hs (reads_get ..) hx with rfl | ⟨cm, hcm, hx⟩
  · exact Or.inl rfl
  · cases cm with
    | some cm => exact Or.inl hx
    | none =>
      rcases passes_read_bind hs (reads_getRequired ..) hx with rfl | ⟨t, ht, hx⟩
      · exact Or.inl rfl
      · have hmade := hs.run_ensureCreated (n := Naming.instanceBundle key.name)
          (r := Bundle.ofInstance key.name t.content.configuration) rfl
        have hrun : (bundle key i).run s =
            (.ok .converged, s.ensured (Bundle.ofInstance key.name t.content.configuration)) := by
          refine (run_bind_of_ok hcm).trans ((run_bind_of_ok ht).trans ?_)
          rw [Bundle.ensureInstance, Program.bind_assoc, run_bind_of_ok hmade]
          split <;> rfl
        have hcreate := passes_bind_done (by rintro (_ | _) <;> exact ⟨_, rfl⟩)
          (passes_bind_done (fun _ => ⟨_, rfl⟩) hx)
        rcases passes_ensureCreated hs (m := Naming.instanceBundle key.name) rfl hcreate with
          rfl | rfl
        · exact Or.inl rfl
        · exact Or.inr ⟨_, rfl, hrun⟩

theorem resumes_bundle (hs : s.Calm) (key : Key) (i : Instance) : (bundle key i).Resumes s := by
  refine resumes_of_ends fun x hx => ?_
  rcases passes_bundle hs hx with rfl | ⟨c, rfl, hr⟩
  · exact Or.inl rfl
  · obtain ⟨cm, hcm⟩ := Option.isSome_iff_exists.1
      (isSome_find?_ensured s (Bundle.ofInstance key.name c))
    exact Or.inr ⟨⟨_, hr⟩, _, Rests.bind ((hs.ensured _).rests_get hcm) rfl⟩

theorem within_made (key : Key) (i : Instance) :
    (made key i).Within fun k _ => k = .space ∨ k = .configMap := by
  refine every_bind (every_ofExcept _) fun _ => ?_
  refine every_bind ((Workload.within_ensureCreated _).imp fun k key h => Or.inl h.1) fun _ => ?_
  refine every_bind (within_of_reads (reads_get ..)) fun cm => ?_
  cases cm with
  | some cm => trivial
  | none =>
    refine every_bind (within_of_reads (reads_getRequired ..)) fun t => ?_
    refine every_bind ?_ fun _ => trivial
    refine every_bind ((Workload.within_ensureCreated _).imp fun k key h => Or.inr h.1) fun b => ?_
    cases b <;> trivial

theorem resumes_inst (hs : s.Calm) (key : Key) : (inst key).Resumes s := by
  rw [inst_eq]
  cases hi : s.find? .inst key with
  | none =>
    refine resumes_get_bind hs hi (fun x hx => ?_) (resumes_of_still fun x hx => hx)
    cases hx
    exact hi
  | some i =>
    refine resumes_get_bind hs hi (fun x hx => ?_) ?_
    · rw [(within_made key i).passes hs.filed hx _ _ (by simp), hi]
    refine resumes_read_bind hs (every_ofExcept _) (fun _ x hv _ _ => ?_) fun _ _ => ?_
    · exact rests_ofExcept (run_ofExcept_ok hv).1 x
    refine resumes_seq (resumes_ensureCreated hs (m := key.name) rfl) (fun b s₁ x hr hx => ?_)
      fun b s₁ hr => ?_
    all_goals
      cases (hs.run_ensureCreated (n := key.name) rfl).symm.trans hr
    · -- The namespace stays whatever becomes of the bundle.
      have hspace := isSome_find?_ensured s (space key.name)
      refine ⟨_, (hx.calm (hs.ensured _)).rests_ensureCreated (n := key.name) rfl ?_⟩
      rcases passes_bundle (hs.ensured _) hx with rfl | ⟨c, rfl, -⟩
      · exact hspace
      · exact isSome_find?_ensured_of_isSome hspace
    · exact resumes_bundle (hs.ensured _) key i

end Reconcile

namespace Workload

/-- All that the children of a pairing are made from, and no Deployment yet. -/
def Childless (s : Store) (p : Pairing) (t : Tenant) (m : Microservice) (i : Instance) : Prop :=
  ∃ ns, p.metadata.ns = some ns ∧ s.find? .deployment (.inSpace ns p.name) = none ∧
    s.find? .tenant (.inSpace ns p.content.tenantId) = some t ∧
    s.find? .microservice (.inSpace ns p.content.microserviceId) = some m ∧
    s.find? .inst (.clusterWide ns) = some i

variable {p : Pairing} {t : Tenant} {m : Microservice} {i : Instance}

theorem run_synthesize_childless (hs : s.Calm) (h : Childless s p t m i) :
    (synthesize p).run s =
      (.ok .created, (s.ensured (service i t m)).ensured (deployment i t m)) := by
  obtain ⟨ns, hns, hd, ht, hm, hi⟩ := h
  simp only [synthesize, hns]
  rw [run_bind_of_ok (hs.rests_get hd)]
  dsimp only
  rw [run_bind_of_ok (rests_parent hs ht), run_bind_of_ok (rests_parent hs hm),
    run_bind_of_ok (rests_parent hs hi),
    run_bind_of_ok (hs.run_ensureCreated (n := Naming.pairing t.name m.name) rfl),
    run_bind_of_ok ((hs.ensured _).run_ensureCreated (n := Naming.pairing t.name m.name) rfl)]
  rfl

theorem passes_synthesize (hs : s.Calm) (hx : (synthesize p).Passes s x) :
    x = s ∨ ∃ t m i, Childless s p t m i ∧ (x = s.ensured (service i t m) ∨
      x = (s.ensured (service i t m)).ensured (deployment i t m)) := by
  unfold synthesize at hx
  split at hx
  · exact Or.inl hx
  · rename_i ns hns
    rcases passes_read_bind hs (reads_get ..) hx with rfl | ⟨d, hd, hx⟩
    · exact Or.inl rfl
    · cases d with
      | some d => exact Or.inl hx
      | none =>
        rcases passes_read_bind hs (reads_parent ..) hx with rfl | ⟨t, ht, hx⟩
        · exact Or.inl rfl
        rcases passes_read_bind hs (reads_parent ..) hx with rfl | ⟨m, hm, hx⟩
        · exact Or.inl rfl
        rcases passes_read_bind hs (reads_parent ..) hx with rfl | ⟨i, hi, hx⟩
        · exact Or.inl rfl
        have hbare : Childless s p t m i := ⟨ns, hns, (run_get_ok hd).1, (run_parent_ok ht).1,
          (run_parent_ok hm).1, (run_parent_ok hi).1⟩
        rcases passes_bind.1 hx with hx | ⟨b, s₁, hb, hx⟩
        · rcases passes_ensureCreated hs (m := Naming.pairing t.name m.name) rfl hx with rfl | rfl
          · exact Or.inl rfl
          · exact Or.inr ⟨t, m, i, hbare, Or.inl rfl⟩
        · cases (hs.run_ensureCreated (n := Naming.pairing t.name m.name) rfl).symm.trans hb
          exact Or.inr ⟨t, m, i, hbare, passes_ensureCreated (hs.ensured _)
            (m := Naming.pairing t.name m.name) rfl (passes_bind_done (fun _ => ⟨_, rfl⟩) hx)⟩

theorem resumes_synthesize (hs : s.Calm) (p : Pairing) : (synthesize p).Resumes s := by
  intro x y s' hx hr
  rcases passes_synthesize hs hx with rfl | ⟨t, m, i, hbare, rfl | rfl⟩
  · exact ⟨y, hr⟩
  · -- The Service is there, and the Deployment is made as it would have been.
    have hbare' : Childless (s.ensured (service i t m)) p t m i := by
      obtain ⟨ns, hns, hd, ht, hm, hi⟩ := hbare
      exact ⟨ns, hns, by rw [agreeOff_ensured _ _ _ _ (by simp), hd],
        find?_ensured_of_some ht, find?_ensured_of_some hm, find?_ensured_of_some hi⟩
    have hrun := run_synthesize_childless (hs.ensured _) hbare'
    rw [ensured_of_isSome (isSome_find?_ensured s (service i t m))] at hrun
    cases hrun.symm.trans hr
    exact ⟨_, run_synthesize_childless hs hbare⟩
  · have hrun := run_synthesize_childless hs hbare
    obtain ⟨z, hz⟩ := rests_synthesize ((hs.ensured _).ensured _) (run_synthesize_ok hrun).1
    cases hz.symm.trans hr
    exact ⟨_, hrun⟩

end Workload

namespace Routing

theorem passes_rebuild (st : Settings) (hs : s.Calm) {ns tenant : String}
    (hx : (rebuild st ns tenant).Passes s x) : x = s ∨ x = rebuilt st s ns tenant := by
  rcases passes_read_bind hs (reads_resolveForTenant ns tenant) hx with rfl | ⟨ps, hps, hx⟩
  · exact Or.inl rfl
  · cases (hs.run_resolveForTenant ns tenant).symm.trans hps
    cases hb : build ns tenant (s.resolved ns tenant) st.ingressClass with
    | none =>
      rw [hb] at hx
      simp only [rebuilt, hb]
      refine passes_delete hs (passes_bind_done ?_ hx)
      rintro (_ | _) <;> exact ⟨_, rfl⟩
    | some wanted =>
      rw [hb] at hx
      simp only [rebuilt, hb]
      exact passes_upsert hs (fits_replace hb) hx

end Routing

namespace Reconcile
variable (st : Settings) {ns tenant area : String} {c : Configuration}

def entered (s : Store) (ns tenant area : String) (c : Configuration) : Store :=
  s.upserted (Bundle.tenantKey ns tenant)
    (Bundle.setEntry (Bundle.tenantKey ns tenant) area (Configuration.entry c))

def published (s : Store) (ns tenant area : String) (c : Configuration) : Store :=
  Routing.rebuilt st (entered s ns tenant area c) ns tenant

theorem calm_entered (hs : s.Calm) : (entered s ns tenant area c).Calm :=
  hs.upserted_of_fits Bundle.fits_setEntry

theorem entered_of_same (h : x.find? .configMap (Bundle.tenantKey ns tenant) =
    (entered s ns tenant area c).find? .configMap (Bundle.tenantKey ns tenant)) :
    entered x ns tenant area c = x := by
  refine upserted_of_none ?_
  rw [h, entered, find?_upserted]
  cases hset : Bundle.setEntry (Bundle.tenantKey ns tenant) area (Configuration.entry c)
      (s.find? .configMap (Bundle.tenantKey ns tenant)) with
  | none => exact hset
  | some cm => exact Bundle.setEntry_of_set hset _

theorem find?_published {k : Kind} {key : Key} (hk : ¬Bundle.Shared ns tenant k key) :
    (published st s ns tenant area c).find? k key = s.find? k key := by
  rw [published, Routing.agreeOff_rebuilt st ns tenant _ _ _ fun h => hk (Or.inr h), entered,
    agreeOff_upserted s _ _ _ _ fun h => hk (Or.inl h)]

theorem alive_published (halive : (s.find? .tenant (.inSpace ns tenant)).isSome) :
    ((published st s ns tenant area c).find? .tenant (.inSpace ns tenant)).isSome := by
  rwa [find?_published st (by simp [Bundle.Shared])]

theorem run_publish_alive (hs : s.Calm) (halive : (s.find? .tenant (.inSpace ns tenant)).isSome) :
    (publish st ns tenant area c).run s = (.ok false, published st s ns tenant area c) := by
  have hs₂ : (published st s ns tenant area c).Calm :=
    Routing.calm_rebuilt st ns tenant (calm_entered hs)
  refine (run_bind_of_ok (Bundle.run_applyEntry st ns tenant hs area c)).trans
    ((run_bind_of_ok (Routing.run_rebuild st ns tenant (calm_entered hs))).trans ?_)
  exact Teardown.run_discardIfTenantGone_alive ns tenant hs₂ (alive_published st halive)

theorem reads_discard_alive (hs : s.Calm) (halive : (s.find? .tenant (.inSpace ns tenant)).isSome)
    (hx : (Teardown.discardIfTenantGone ns tenant).Passes s x) : x = s := by
  rcases passes_read_bind hs (reads_get ..) hx with rfl | ⟨t, ht, hx⟩
  · rfl
  · rw [(run_get_ok ht).1] at halive
    cases t with
    | none => cases halive
    | some t => exact hx

theorem passes_publish_alive (hs : s.Calm)
    (halive : (s.find? .tenant (.inSpace ns tenant)).isSome)
    (hx : (publish st ns tenant area c).Passes s x) :
    x = s ∨ x = entered s ns tenant area c ∨ x = published st s ns tenant area c := by
  rcases passes_bind.1 hx with hx | ⟨o, s₁, ho, hx⟩
  · exact (passes_upsert hs Bundle.fits_setEntry hx).imp id Or.inl
  cases (Bundle.run_applyEntry st ns tenant hs area c).symm.trans ho
  right
  rcases passes_bind.1 hx with hx | ⟨o, s₂, ho, hx⟩
  · exact Routing.passes_rebuild st (calm_entered hs) hx
  cases (Routing.run_rebuild st ns tenant (calm_entered hs)).symm.trans ho
  right
  exact reads_discard_alive (Routing.calm_rebuilt st ns tenant (calm_entered hs))
    (alive_published st halive) hx

/-- Wherever publishing is left, doing it again comes to the same store. -/
theorem published_of_passes (hs : s.Calm)
    (halive : (s.find? .tenant (.inSpace ns tenant)).isSome)
    (hx : (publish st ns tenant area c).Passes s x) :
    published st x ns tenant area c = published st s ns tenant area c := by
  rcases passes_publish_alive st hs halive hx with rfl | rfl | rfl
  · rfl
  · rw [published, entered_of_same rfl, published]
  · rw [published, entered_of_same (x := published st s ns tenant area c) (s := s)]
    · exact Routing.rebuilt_of_current st ns tenant (Routing.current_rebuilt ..)
    · exact Routing.agreeOff_rebuilt st ns tenant _ _ _ (by simp)

theorem rests_parent_of_passes {α : Type} {p : Program α} (hs : s.Calm) (hx : p.Passes s x)
    {P : Kind → Key → Prop} (hp : p.Within P) {key : Key} {e : Error} {r : Resource k}
    (hk : ¬P k key) (h : (Workload.parent k key e).Rests s r) :
    (Workload.parent k key e).Rests x r := by
  have hr : s.find? k key = some r := (Workload.run_parent_ok h).1
  refine Workload.rests_parent (hx.calm hs) ?_
  rw [hp.passes hs.filed hx k key hk, hr]

theorem resumes_announce (hs : s.Calm) {p : Pairing}
    (halive : (s.find? .tenant (.inSpace ns p.content.tenantId)).isSome) :
    (announce st ns p).Resumes s := by
  refine resumes_read_bind hs (reads_parent ..) (fun m x hm hx _ => ?_) fun m hm => ?_
  · exact rests_parent_of_passes hs hx (within_announce st ns p) (by simp [Bundle.Shared]) hm
  · intro x o s' hx hr
    have hpub := passes_bind_done (by rintro (_ | _) <;> exact ⟨_, rfl⟩) hx
    have hsame := published_of_passes st hs halive hpub
    have halive' : (x.find? .tenant (.inSpace ns p.content.tenantId)).isSome := by
      rwa [(within_publish st ..).passes hs.filed hpub _ _ (by simp [Bundle.Shared])]
    rw [run_bind_of_ok (run_publish_alive st (hpub.calm hs) halive'), hsame] at hr
    cases hr
    exact ⟨_, run_bind_of_ok (run_publish_alive st hs halive)⟩

theorem resumes_live (hs : s.Calm) (ns : String) (p : Pairing) : (live st ns p).Resumes s := by
  rw [live_eq]
  refine resumes_read_bind hs (every_ofExcept _) (fun _ x hv _ _ => ?_) fun _ _ => ?_
  · exact rests_ofExcept (run_ofExcept_ok hv).1 x
  refine resumes_read_bind hs (reads_parent ..) (fun t x ht hx _ => ?_) fun t ht => ?_
  · refine rests_parent_of_passes hs hx (P := fun k key =>
      Workload.Child k key ∨ Bundle.Shared ns p.content.tenantId k key) ?_ ?_ ht
    · exact every_bind (Workload.within_parent ..) fun _ =>
        every_bind ((Workload.within_synthesize p).imp fun _ _ => Or.inl) fun _ =>
          (within_announce st ns p).imp fun _ _ => Or.inr
    · simp [Workload.Child, Bundle.Shared]
  refine resumes_seq (Workload.resumes_synthesize hs p) (fun y s₁ x hr hx => ?_) fun y s₁ hr => ?_
  all_goals obtain ⟨hready, ha, hc⟩ := Workload.run_synthesize_ok hr
  · -- The children stay whatever becomes of the bundle and the table.
    refine Workload.rests_synthesize (hx.calm (hc hs)) (hready.congr ?_)
    exact ((within_announce st ns p).passes (hc hs).filed hx).mono fun k key h =>
      h.imp And.left And.left
  · refine resumes_announce st (hc hs) ?_
    rw [ha _ _ (by simp), (Workload.run_parent_ok ht).1]
    rfl

theorem find?_of_passes_live (hs : s.Calm) {p : Pairing} (hx : (live st ns p).Passes s x)
    (key : Key) : x.find? .pairing key = s.find? .pairing key :=
  (within_live st ns p).passes hs.filed hx _ _ (by simp [Workload.Child, Bundle.Shared])

theorem find?_of_passes_pairing_live (hs : s.Calm) {key : Key} {p : Pairing}
    (hp : s.find? .pairing key = some p) (hx : (pairing st ns key).Passes s x) :
    x.find? .pairing key = some p := by
  rw [pairing_eq] at hx
  exact find?_of_passes_get_bind hs hp (fun x hx => by rw [find?_of_passes_live st hs hx, hp]) hx

theorem resumes_pairing_live (hs : s.Calm) (ns : String) {key : Key} {p : Pairing}
    (hp : s.find? .pairing key = some p) : (pairing st ns key).Resumes s := by
  rw [pairing_eq]
  refine resumes_get_bind hs hp (fun x hx => ?_) (resumes_live st hs ns p)
  rw [find?_of_passes_live st hs hx, hp]

end Reconcile
end TenantOperator
