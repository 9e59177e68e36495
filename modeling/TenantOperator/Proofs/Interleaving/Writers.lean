import TenantOperator.Proofs.Interleaving.Upserts
import TenantOperator.Proofs.Tenancy.Entries

/-! Writers of one bundle. Each of them reads the bundle, sets the entry of its area and writes; in
every order of their calls it is as if each writer set its entry at one moment. -/
namespace TenantOperator
open Program Store

namespace Bundle

/-- A run that sets the entry of one area, with settings of its own. -/
structure Writer where
  settings : Settings
  area : String
  configuration : Configuration

namespace Writer

def entry (w : Writer) : String := w.configuration.entry

def change (w : Writer) (ns tenant : String) : Option ConfigMap → Option ConfigMap :=
  setEntry (tenantKey ns tenant) w.area w.entry

def program (w : Writer) (ns tenant : String) : Program WriteOutcome :=
  applyEntry w.settings ns tenant w.area w.configuration

/-- Data with the writer's entry; absent data becomes present. -/
def enter (w : Writer) (d : Option Labels) : Option Labels :=
  some ((d.getD ∅).insert w.area w.entry)

end Writer

def stored (s : Store) (ns tenant : String) : Option Labels :=
  (s.find? .configMap (tenantKey ns tenant)).map data

variable {s : Store} {ns tenant area : String} {w : Writer}

theorem entries_eq_stored (s : Store) (ns tenant : String) :
    entries s ns tenant = (stored s ns tenant).getD ∅ := rfl

theorem data_of_change {current : Option ConfigMap} {cm : ConfigMap}
    (h : w.change ns tenant current = some cm) : some (data cm) = w.enter (current.map data) := by
  rw [setEntry_eq_some h]
  cases current <;> rfl

theorem find?_of_change_eq_none
    (h : w.change ns tenant (s.find? .configMap (tenantKey ns tenant)) = none) :
    (entries s ns tenant).find? w.area = some w.entry := by
  simp only [Writer.change, setEntry] at h
  split at h
  · rename_i he
    rw [entries]
    cases hc : s.find? .configMap (tenantKey ns tenant) with
    | none => simp [hc, make, data] at he
    | some cm => simpa [hc] using he
  · cases h

theorem find?_getD_enter_of_ne (h : area ≠ w.area) (d : Option Labels) :
    ((w.enter d).getD ∅).find? area = (d.getD ∅).find? area :=
  SortedMap.find?_insert_of_ne _ h _

theorem find?_getD_enter_self (w : Writer) (d : Option Labels) :
    ((w.enter d).getD ∅).find? w.area = some w.entry :=
  SortedMap.find?_insert_self ..

end Bundle

namespace Pool
variable {ι : Type} {P : Pool ι WriteOutcome} {ns tenant : String} {w : ι → Bundle.Writer} {i : ι}
  {e : Event ι} {es : List (Event ι)}

def ofWriters (ns tenant : String) (w : ι → Bundle.Writer) (s : Store) : Pool ι WriteOutcome :=
  ⟨s, fun i => (w i).program ns tenant⟩

/-- Every run is a writer of the bundle, at its start or on its way. -/
structure Writing (ns tenant : String) (w : ι → Bundle.Writer) (P : Pool ι WriteOutcome) :
    Prop where
  sound : P.store.Sound
  runs (i : ι) : ∃ s, s.Leads P.store ∧
    (P.runs i).Upserts (Bundle.tenantKey ns tenant) ((w i).change ns tenant) s

theorem writing_ofWriters {s : Store} (hs : s.Sound) :
    (ofWriters ns tenant w s).Writing ns tenant w :=
  ⟨hs, fun _ => ⟨s, .refl s, upserts_upsert hs Bundle.fits_setEntry _⟩⟩

namespace Writing
variable [DecidableEq ι]

theorem turn (h : P.Writing ns tenant w) {c : Call} {next : Except Error c.Answer → _}
    (hi : P.runs i = .call c next) :
    ∃ slot, P.written (.run i) = (slot.map (i, ·)).toList ∧
      Upsert.Turn (Bundle.tenantKey ns tenant) ((w i).change ns tenant) P.store
        (P.step (.run i)).store slot ((P.step (.run i)).runs i) := by
  obtain ⟨s, hl, hu⟩ := h.runs i
  rw [hi] at hu
  refine ⟨_, written_of_call hi, ?_⟩
  rw [store_step_run hi, runs_step_run_self hi]
  exact (hu _ hl).1

theorem step (h : P.Writing ns tenant w) (e : Event ι) : (P.step e).Writing ns tenant w := by
  refine ⟨(leads_step P e).sound h.sound, fun i => ?_⟩
  obtain ⟨s, hl, hu⟩ := h.runs i
  rcases runs_step_cases P e i with hi | ⟨c, next, rfl, hc, hi⟩ <;> rw [hi]
  · exact ⟨s, hl.trans (leads_step P e), hu⟩
  · rw [hc] at hu
    refine ⟨_, .refl _, ?_⟩
    rw [store_step_run hc]
    exact (hu _ hl).2

theorem exec (h : P.Writing ns tenant w) (es : List (Event ι)) :
    (P.exec es).Writing ns tenant w := by
  induction es generalizing P with
  | nil => exact h
  | cons e es ih => exact ih (h.step e)

theorem step_cases (h : P.Writing ns tenant w)
    (hcall : ∀ c, e = .call c → ¬c.Writes .configMap (Bundle.tenantKey ns tenant)) :
    P.written e = [] ∧ Bundle.stored (P.step e).store ns tenant = Bundle.stored P.store ns tenant ∨
    ∃ i o, e = .run i ∧ P.written e = [(i, .configMap, Bundle.tenantKey ns tenant)] ∧
      Bundle.stored (P.step e).store ns tenant = (w i).enter (Bundle.stored P.store ns tenant) ∧
      (∀ r, P.runs i ≠ .done r) ∧ (P.step e).runs i = .done (.ok o) ∧ o ≠ .unchanged := by
  cases e with
  | call c =>
    refine Or.inl ⟨rfl, ?_⟩
    rw [Bundle.stored, Bundle.stored]
    exact congrArg (Option.map Bundle.data) (P.store.find?_answer_of_not_writes (hcall c rfl))
  | run i =>
    cases hi : P.runs i with
    | done r => exact Or.inl ⟨written_of_done hi, by rw [step_run_of_done hi]⟩
    | call c next =>
      obtain ⟨slot, hslot, hturn⟩ := h.turn hi
      rw [hslot]
      generalize (P.step (.run i)).store = s' at hturn ⊢
      generalize hrest : (P.step (.run i)).runs i = rest at hturn
      cases hturn with
      | on hsame _ => exact Or.inl ⟨rfl, by rw [Bundle.stored, hsame, Bundle.stored]⟩
      | idle hr => exact Or.inl ⟨rfl, rfl⟩
      | @wrote r o hr ho =>
        refine Or.inr ⟨i, _, rfl, rfl, ?_, by simp [hi], hrest, ho⟩
        rw [Bundle.stored, find?_put_self]
        show some (Bundle.data r) = _
        exact Bundle.data_of_change hr

/-- The bundle's data is what it was, with the entries of the writes in their order. -/
theorem stored_exec (h : P.Writing ns tenant w)
    (hcall : ∀ c, .call c ∈ es → ¬c.Writes .configMap (Bundle.tenantKey ns tenant)) :
    Bundle.stored (P.exec es).store ns tenant =
      ((P.log es).map (·.1)).foldl (fun d i => (w i).enter d)
        (Bundle.stored P.store ns tenant) := by
  induction es generalizing P with
  | nil => rfl
  | cons e es ih =>
    have hrest : P.exec (e :: es) = (P.step e).exec es := rfl
    rw [hrest, ih (h.step e) fun c hc => hcall c (by simp [hc])]
    rw [log, List.map_append, List.foldl_append]
    rcases h.step_cases (e := e) fun c hc => hcall c (by simp [hc]) with
      ⟨hw, hd⟩ | ⟨i, o, rfl, hw, hd, -⟩ <;> rw [hw, hd] <;> rfl

theorem done_of_mem_log (h : P.Writing ns tenant w)
    (hcall : ∀ c, .call c ∈ es → ¬c.Writes .configMap (Bundle.tenantKey ns tenant))
    (hi : i ∈ (P.log es).map (·.1)) : ∃ o, (P.exec es).runs i = .done (.ok o) ∧ o ≠ .unchanged := by
  induction es using List.reverseRecOn with
  | nil => cases hi
  | append_singleton es e ih =>
    rw [log_concat, List.map_append, List.mem_append] at hi
    rcases hi with hi | hi
    · obtain ⟨o, ho, hne⟩ := ih (fun c hc => hcall c (by simp [hc])) hi
      rw [exec_append]
      exact ⟨o, runs_exec_of_done ho [e], hne⟩
    · rw [exec_concat]
      rcases (h.exec es).step_cases (e := e) fun c hc => hcall c (by simp [hc]) with
        ⟨hw, -⟩ | ⟨j, o, rfl, hw, -, -, ho, hne⟩ <;> rw [hw] at hi
      · cases hi
      · obtain rfl : i = j := by simpa using hi
        exact ⟨o, ho, hne⟩

theorem nodup_log (h : P.Writing ns tenant w)
    (hcall : ∀ c, .call c ∈ es → ¬c.Writes .configMap (Bundle.tenantKey ns tenant)) :
    ((P.log es).map (·.1)).Nodup := by
  induction es using List.reverseRecOn with
  | nil => exact List.nodup_nil
  | append_singleton es e ih =>
    have hes : ∀ c, .call c ∈ es → ¬c.Writes .configMap (Bundle.tenantKey ns tenant) := fun c hc =>
      hcall c (by simp [hc])
    rw [log_concat, List.map_append]
    rcases (h.exec es).step_cases (e := e) fun c hc => hcall c (by simp [hc]) with
      ⟨hw, -⟩ | ⟨i, o, rfl, hw, -, hrun, -⟩ <;> rw [hw]
    · simpa using ih hes
    · refine List.nodup_append.2 ⟨ih hes, by simp, fun j hj i' hi' => ?_⟩
      obtain rfl : i' = i := by simpa using hi'
      rintro rfl
      obtain ⟨o, ho, -⟩ := h.done_of_mem_log hes hj
      exact hrun _ ho

/-- What stands under an area changes only with a turn of a run for that area. -/
theorem exists_run_of_changed (h : P.Writing ns tenant w)
    (hcall : ∀ c, e = .call c → ¬c.Writes .configMap (Bundle.tenantKey ns tenant)) {area : String}
    (hne : (Bundle.entries (P.step e).store ns tenant).find? area ≠
      (Bundle.entries P.store ns tenant).find? area) :
    ∃ j, e = .run j ∧ (w j).area = area ∧ ∀ r, P.runs j ≠ .done r := by
  simp only [Bundle.entries_eq_stored] at hne
  rcases h.step_cases hcall with ⟨-, hd⟩ | ⟨j, o, rfl, -, hd, hrun, -⟩ <;> rw [hd] at hne
  · exact absurd rfl hne
  · refine ⟨j, rfl, ?_, hrun⟩
    by_contra harea
    exact hne (Bundle.find?_getD_enter_of_ne (Ne.symm harea) _)

theorem find?_entries_exec (h : P.Writing ns tenant w)
    (hcall : ∀ c, .call c ∈ es → ¬c.Writes .configMap (Bundle.tenantKey ns tenant)) {area : String}
    (harea : ∀ i, (w i).area ≠ area) :
    (Bundle.entries (P.exec es).store ns tenant).find? area =
      (Bundle.entries P.store ns tenant).find? area := by
  induction es using List.reverseRecOn with
  | nil => rfl
  | append_singleton es e ih =>
    rw [exec_concat, ← ih fun c hc => hcall c (by simp [hc])]
    by_contra hne
    obtain ⟨j, -, hj, -⟩ :=
      (h.exec es).exists_run_of_changed (fun c hc => hcall c (by simp [hc])) hne
    exact harea j hj

theorem find?_of_last (h : P.Writing ns tenant w) {c : Call} {next : Except Error c.Answer → _}
    (hi : P.runs i = .call c next) {o : WriteOutcome}
    (ho : (P.step (.run i)).runs i = .done (.ok o)) :
    (Bundle.entries (P.step (.run i)).store ns tenant).find? (w i).area = some (w i).entry ∧
      (o ≠ .unchanged → i ∈ (P.written (.run i)).map (·.1)) := by
  obtain ⟨slot, hslot, hturn⟩ := h.turn hi
  rw [hslot]
  rw [ho] at hturn
  generalize (P.step (.run i)).store = s' at hturn ⊢
  cases hturn with
  | on _ hrest => exact absurd rfl (hrest o)
  | idle hr => exact ⟨Bundle.find?_of_change_eq_none hr, fun hne => absurd rfl hne⟩
  | @wrote r _ hr _ =>
    refine ⟨?_, fun _ => by simp⟩
    rw [Bundle.entries, find?_put_self]
    have hd : some (Bundle.data r) = _ := Bundle.data_of_change hr
    show (Option.getD (some (Bundle.data r)) ∅).find? _ = _
    rw [hd]
    exact Bundle.find?_getD_enter_self ..

theorem find?_step_of_failed (h : P.Writing ns tenant w) {es : List (Event ι)} {e : Error}
    (he : ((P.step (.run i)).exec es).runs i = .done (.error e)) (k : Kind) (key : Key) :
    (P.step (.run i)).store.find? k key = P.store.find? k key := by
  cases hi : P.runs i with
  | done r => rw [step_run_of_done hi]
  | call c next =>
    obtain ⟨slot, -, hturn⟩ := h.turn hi
    generalize (P.step (.run i)).store = s' at hturn ⊢
    generalize hrest : (P.step (.run i)).runs i = rest at hturn
    cases hturn with
    | on hsame _ => exact hsame k key
    | idle hr => rfl
    | wrote hr ho =>
      rw [runs_exec_of_done hrest] at he
      cases he

/-- A writer that ended well has put its entry with the last of its turns, and later only other
writers of its area change what stands there. -/
theorem exists_moment (h : P.Writing ns tenant w) (hbegin : ∀ r, P.runs i ≠ .done r)
    (hcall : ∀ c, .call c ∈ es → ¬c.Writes .configMap (Bundle.tenantKey ns tenant))
    {o : WriteOutcome} (ho : (P.exec es).runs i = .done (.ok o)) :
    (i ∈ (P.log es).map (·.1) ↔ o ≠ .unchanged) ∧ ∃ before after,
      es = before ++ .run i :: after ∧
      (Bundle.entries (P.exec (before ++ [.run i])).store ns tenant).find? (w i).area =
        some (w i).entry ∧
      ∀ mid e rest, after = mid ++ e :: rest →
        (Bundle.entries (P.exec (before ++ .run i :: (mid ++ [e]))).store ns tenant).find?
            (w i).area ≠
          (Bundle.entries (P.exec (before ++ .run i :: mid)).store ns tenant).find? (w i).area →
        ∃ j, j ≠ i ∧ e = .run j ∧ (w j).area = (w i).area := by
  obtain ⟨before, after, c, next, rfl, hc, hend⟩ := exists_last_turn hbegin ho
  rw [exec_concat] at hend
  obtain ⟨hentry, hwrite⟩ := (h.exec before).find?_of_last hc hend
  refine ⟨⟨fun hmem => ?_, fun hne => ?_⟩, before, after, rfl, by rwa [exec_concat], ?_⟩
  · obtain ⟨o', ho', hne⟩ := h.done_of_mem_log hcall hmem
    rw [ho] at ho'
    cases ho'
    exact hne
  · simp only [log_append, log, List.map_append, List.mem_append]
    exact Or.inr (Or.inl (hwrite hne))
  · rintro mid e rest rfl hne
    have hlater : (P.exec (before ++ .run i :: mid)).runs i = .done (.ok o) := by
      have hsplit : before ++ .run i :: mid = (before ++ [.run i]) ++ mid := by simp
      rw [hsplit, exec_append, exec_concat]
      exact runs_exec_of_done hend mid
    have hstep : P.exec (before ++ .run i :: (mid ++ [e])) =
        (P.exec (before ++ .run i :: mid)).step e := by
      rw [← exec_concat]
      simp
    rw [hstep] at hne
    obtain ⟨j, rfl, hj, hrun⟩ := (h.exec _).exists_run_of_changed
      (fun c hc => hcall c (by simp [hc])) hne
    refine ⟨j, ?_, rfl, hj⟩
    rintro rfl
    exact hrun _ hlater

end Writing

variable [DecidableEq ι]

/-- Writers of one bundle lose no update, in whatever order their calls come and whatever else
happens that leaves the bundle alone. Each writes at most once, and the data is the initial data
with the written entries set one after the other. A writer that ended well has put its entry at one
of its turns, and later only writers of the same area change it; one that failed has changed
nothing. Areas of no writer stay as they are. -/
theorem applyEntry_linearizable {s : Store} (hs : s.Reached) (ns tenant : String)
    (w : ι → Bundle.Writer) (es : List (Event ι))
    (hcall : ∀ c, .call c ∈ es → ¬c.Writes .configMap (Bundle.tenantKey ns tenant)) :
    let P := ofWriters ns tenant w s
    let committed := (P.log es).map (·.1)
    let entries := fun es => Bundle.entries (P.exec es).store ns tenant
    committed.Nodup ∧
    Bundle.stored (P.exec es).store ns tenant =
      committed.foldl (fun d i => (w i).enter d) (Bundle.stored s ns tenant) ∧
    (∀ i o, (P.exec es).runs i = .done (.ok o) →
      (i ∈ committed ↔ o ≠ .unchanged) ∧ ∃ before after, es = before ++ .run i :: after ∧
        (entries (before ++ [.run i])).find? (w i).area = some (w i).entry ∧
        ∀ mid e rest, after = mid ++ e :: rest →
          (entries (before ++ .run i :: (mid ++ [e]))).find? (w i).area ≠
            (entries (before ++ .run i :: mid)).find? (w i).area →
          ∃ j, j ≠ i ∧ e = .run j ∧ (w j).area = (w i).area) ∧
    (∀ i e, (P.exec es).runs i = .done (.error e) → i ∉ committed ∧
      ∀ before after, es = before ++ .run i :: after → ∀ k key,
        (P.exec (before ++ [.run i])).store.find? k key = (P.exec before).store.find? k key) ∧
    ∀ area, (∀ i, (w i).area ≠ area) → (entries es).find? area = (entries []).find? area := by
  intro P committed entries
  have h : P.Writing ns tenant w := writing_ofWriters hs.sound
  refine ⟨h.nodup_log hcall, h.stored_exec hcall,
    fun i o ho => h.exists_moment (upsert_ne_done _) hcall ho,
    fun i e he => ⟨fun hmem => ?_, ?_⟩, fun area harea => h.find?_entries_exec hcall harea⟩
  · obtain ⟨o, ho, -⟩ := h.done_of_mem_log hcall hmem
    rw [ho] at he
    cases he
  · rintro before after rfl k key
    rw [exec_append, exec, List.foldl_cons, ← exec] at he
    rw [exec_concat]
    exact (h.exec before).find?_step_of_failed he k key

section contention

def rivals : Bool → Bundle.Writer
  | false => ⟨{}, "b", .empty⟩
  | true => ⟨{}, "c", .empty⟩

def contended : Pool Bool WriteOutcome := ofWriters "dc1" "a" rivals {}

/-- The second one finds that the bundle was made, and reads and writes again. -/
def contention : List (Event Bool) :=
  [.run false, .run true, .run false, .run true, .run true, .run true]

theorem applyEntry_linearizable_contention :
    (contended.log contention).map (·.1) = [false, true] ∧
    Bundle.stored (contended.exec contention).store "dc1" "a" =
      (rivals true).enter ((rivals false).enter none) ∧
    (Bundle.entries (contended.exec contention).store "dc1" "a").find? "d" = none := by
  have hlog : (contended.log contention).map (·.1) = [false, true] := rfl
  obtain ⟨-, hdata, -, -, hother⟩ := applyEntry_linearizable .fresh "dc1" "a" rivals contention
    (by simp [contention])
  exact ⟨hlog, hdata, hother "d" (by decide)⟩

end contention

end Pool
end TenantOperator
