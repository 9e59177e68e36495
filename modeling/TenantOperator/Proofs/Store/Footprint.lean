import TenantOperator.Proofs.Store.Filed
import TenantOperator.Store.Upsert

/-! What the calls of a program can be, whatever the store answers. A program whose calls write
certain slots only leaves all other slots of the store as they are, faults or not. -/
namespace TenantOperator

/-- Answers of a store in which every object lies under its own key. -/
def Call.Admits : (c : Call) → Except Error c.Answer → Prop
  | .get _ key, .ok (some r) => r.key = key
  | .list _ ns labels, .ok l =>
    ∀ r ∈ l, (∀ n, ns = some n → r.metadata.ns = some n) ∧ r.metadata.satisfies labels
  | _, _ => True

theorem Store.Filed.of_mem_select {s : Store} (hs : s.Filed) {k : Kind} {ns : Option String}
    {labels : Labels} {r : Resource k} (hr : r ∈ s.select k ns labels) :
    s.find? k r.key = some r ∧ (∀ n, ns = some n → r.metadata.ns = some n) ∧
      r.metadata.satisfies labels := by
  obtain ⟨key, hf, hp⟩ := Store.mem_select.1 hr
  have hk := hs hf
  subst hk
  simp only [Store.picks, Bool.and_eq_true, Bool.or_eq_true, beq_iff_eq] at hp
  refine ⟨hf, ?_, hp.2⟩
  rintro n rfl
  simpa using hp.1

theorem Store.Filed.of_mem_space {s : Store} (hs : s.Filed) {k : Kind} {ns : String}
    {labels : Labels} {r : Resource k} (hr : r ∈ s.select k (some ns) labels) :
    r.key = .inSpace ns r.name ∧ s.find? k (.inSpace ns r.name) = some r ∧
      r.metadata.satisfies labels := by
  obtain ⟨hf, hns, hl⟩ := hs.of_mem_select hr
  have hkey : r.key = .inSpace ns r.name := congrArg (Key.mk r.name) (hns ns rfl)
  exact ⟨hkey, hkey ▸ hf, hl⟩

theorem Store.Filed.nodup_names {s : Store} (hs : s.Filed) (k : Kind) (ns : String)
    (labels : Labels) : ((s.select k (some ns) labels).map (·.name)).Nodup := by
  have hinc : (s.table k).entries.Pairwise fun a b => compare a.1 b.1 = .lt :=
    (s.table k).increasing
  have hkey : ∀ e ∈ (s.table k).entries, e.2.key = e.1 := fun e he =>
    hs (SortedMap.find?_eq_some_iff.2 he)
  simp only [Store.select, List.map_map, List.Nodup, List.pairwise_map]
  refine (hinc.filter _).imp_of_mem fun {a b} ha hb hlt hn => ?_
  obtain ⟨ha, hpa⟩ := List.mem_filter.1 ha
  obtain ⟨hb, hpb⟩ := List.mem_filter.1 hb
  simp only [Option.isNone_some, Bool.false_or, Bool.and_eq_true, beq_iff_eq] at hpa hpb
  have hns : a.1.ns = b.1.ns := hpa.1.trans hpb.1.symm
  have hn : a.1.name = b.1.name := by rwa [← hkey a ha, ← hkey b hb]
  have he : a.1 = b.1 := by rw [show a.1 = ⟨a.1.name, a.1.ns⟩ from rfl, hn, hns]
  simp [he, Std.ReflCmp.compare_self] at hlt

theorem Store.Filed.select_eq_filter {s x : Store} {k : Kind} (hs : s.Filed)
    (h : ∀ key r, x.find? k key = some r → s.find? k key = some r) (ns : Option String)
    (labels : Labels) :
    x.select k ns labels = (s.select k ns labels).filter fun r => (x.find? k r.key).isSome := by
  have htable : (x.table k).filter (Store.picks ns labels) =
      ((s.table k).filter (Store.picks ns labels)).filter fun key _ => (x.find? k key).isSome := by
    refine SortedMap.ext_find? fun key => ?_
    ext r
    simp only [SortedMap.find?_filter, Option.filter_eq_some_iff]
    constructor
    · rintro ⟨hr, hp⟩
      have hx : x.find? k key = some r := hr
      exact ⟨⟨h key r hx, hp⟩, by rw [hx]; rfl⟩
    · rintro ⟨⟨hr, hp⟩, hx⟩
      obtain ⟨r', hr'⟩ := Option.isSome_iff_exists.1 hx
      obtain rfl : r' = r := Option.some.inj ((h key r' hr').symm.trans hr)
      exact ⟨hr', hp⟩
  have hkey : ∀ e ∈ ((s.table k).filter (Store.picks ns labels)).entries,
      (x.find? k e.1).isSome = (x.find? k e.2.key).isSome := fun e he => by
    rw [hs (SortedMap.find?_eq_some_iff.2 (List.mem_filter.1 he).1)]
  refine (congrArg SortedMap.values htable).trans ?_
  show (((s.table k).filter (Store.picks ns labels)).entries.filter _).map _ =
    (((s.table k).filter (Store.picks ns labels)).entries.map (·.2)).filter _
  rw [List.filter_congr hkey, List.filter_map]
  rfl

theorem Store.Filed.admits_answer {s : Store} (hs : s.Filed) (c : Call) :
    c.Admits (s.answer c).1 := by
  cases c with
  | get k key =>
    simp only [Store.answer]
    cases hr : s.find? k key with
    | none => trivial
    | some r => exact hs hr
  | list k ns labels => exact fun r hr => (hs.of_mem_select hr).2
  | create k r => trivial
  | update k r => trivial
  | delete k key => trivial

theorem Call.admits_error (c : Call) (e : Error) : c.Admits (.error e) := by cases c <;> trivial

theorem Store.Filed.admits {s : Store} (hs : s.Filed) (c : Call) : c.Admits (s.perform c).1 := by
  rcases s.perform_eq c with h | ⟨p, l, h⟩ <;> rw [h]
  · exact hs.admits_answer c
  · exact c.admits_error _

namespace Program
variable {α β : Type} {Q R : Call → Prop} {P : Kind → Key → Prop}

/-- Every call the program can come to is one of `Q`. -/
def Every (Q : Call → Prop) : Program α → Prop
  | .done _ => True
  | .call c next => Q c ∧ ∀ a, c.Admits a → (next a).Every Q

@[simp] theorem every_pure (a : α) : (pure a : Program α).Every Q := trivial

@[simp] theorem every_fail (e : Error) : (fail e : Program α).Every Q := trivial

@[simp] theorem every_ofExcept (r : Except Error α) : (ofExcept r).Every Q := trivial

theorem Every.mono {p : Program α} (h : p.Every Q) (hqr : ∀ c, Q c → R c) : p.Every R := by
  induction p with
  | done r => trivial
  | call c next ih => exact ⟨hqr c h.1, fun a ha => ih a (h.2 a ha)⟩

theorem every_perform {c : Call} (h : Q c) : (perform c).Every Q := ⟨h, fun _ _ => trivial⟩

theorem every_bind {p : Program α} {f : α → Program β} (hp : p.Every Q)
    (hf : ∀ a, (f a).Every Q) : (p >>= f).Every Q := by
  induction p with
  | done r =>
    cases r with
    | ok a => exact hf a
    | error e => trivial
  | call c next ih => exact ⟨hp.1, fun a ha => ih a (hp.2 a ha)⟩

theorem every_attempt {p : Program α} (hp : p.Every Q) : p.attempt.Every Q := by
  induction p with
  | done r => trivial
  | call c next ih => exact ⟨hp.1, fun a ha => ih a (hp.2 a ha)⟩

/-- What follows a call may count on the answers that stores give. -/
theorem every_attempt_bind {c : Call} {f : Except Error c.Answer → Program β} (h : Q c)
    (hf : ∀ a, c.Admits a → (f a).Every Q) : ((perform c).attempt >>= f).Every Q :=
  ⟨h, hf⟩

theorem every_ensureCreated {k : Kind} {r : Resource k} (h : Q (.create k r)) :
    (ensureCreated r).Every Q := by
  refine every_bind (every_attempt (every_perform h)) fun a => ?_
  cases a with
  | ok _ => trivial
  | error e => dsimp only; split <;> trivial

/-- An invariant that the calls of `Q` keep is kept by every run. -/
theorem Every.run {I : Store → Prop} {p : Program α} (h : p.Every Q)
    (keep : ∀ s c, I s → Q c → I (s.perform c).2) {s : Store} (hs : s.Filed) (hi : I s) :
    I (p.run s).2 ∧ (p.run s).2.Filed := by
  induction p generalizing s with
  | done r => exact ⟨hi, hs⟩
  | call c next ih =>
    exact ih _ (h.2 _ (hs.admits c)) (hs.perform c) (keep s c hi h.1)

/-- Every slot the program can write is in `P`. -/
def Within (P : Kind → Key → Prop) : Program α → Prop :=
  Every fun c => ∀ k key, c.Writes k key → P k key

theorem Within.imp {P' : Kind → Key → Prop} {p : Program α} (h : p.Within P)
    (hP : ∀ k key, P k key → P' k key) : p.Within P' :=
  h.mono fun _ hc k key hw => hP k key (hc k key hw)

theorem Within.run {p : Program α} (h : p.Within P) {s : Store} (hs : s.Filed) :
    Store.AgreeOff P s (p.run s).2 ∧ (p.run s).2.Filed := by
  refine Every.run (I := Store.AgreeOff P s) h (fun s' c hi hc => ?_) hs (.refl P s)
  exact hi.trans fun k key hp => s'.find?_perform_of_not_writes fun hw => hp (hc k key hw)

end Program

def Call.Reads (c : Call) : Prop := ∀ k key, ¬c.Writes k key

theorem Call.reads_get (k : Kind) (key : Key) : (Call.get k key).Reads := by
  simp [Reads, Writes, Puts]

theorem Call.reads_list (k : Kind) (ns : Option String) (labels : Labels) :
    (Call.list k ns labels).Reads := by
  simp [Reads, Writes, Puts]

theorem Call.writes_puts {k : Kind} {r : Resource k} {key : Key} (hr : r.key = key) :
    (∀ k' key', (Call.create k r).Writes k' key' → k' = k ∧ key' = key) ∧
      ∀ k' key', (Call.update k r).Writes k' key' → k' = k ∧ key' = key := by
  subst hr
  constructor <;> intro k' key' hw
  · obtain ⟨rfl, rfl⟩ := Call.writes_create.1 hw
    exact ⟨rfl, rfl⟩
  · obtain ⟨rfl, rfl⟩ := Call.writes_update.1 hw
    exact ⟨rfl, rfl⟩

theorem Call.writes_delete_only {k k' : Kind} {key key' : Key}
    (hw : (Call.delete k key).Writes k' key') : k' = k ∧ key' = key := by
  obtain ⟨rfl, rfl⟩ := Call.writes_delete.1 hw
  exact ⟨rfl, rfl⟩

theorem Program.within_read {W : Kind → Key → Prop} {c : Call} (h : c.Reads) :
    (perform c).Within W :=
  every_perform fun k key hw => absurd hw (h k key)

theorem Program.within_of_reads {α : Type} {W : Kind → Key → Prop} {p : Program α}
    (h : p.Every Call.Reads) : p.Within W :=
  h.mono fun _ hc k key hw => absurd hw (hc k key)

theorem Program.within_delete (k : Kind) (key : Key) :
    (Program.delete k key).Within fun k' key' => k' = k ∧ key' = key :=
  every_perform fun _ _ => Call.writes_delete_only

namespace Upsert
variable {σ : Type} {k : Kind} {Q : Call → Prop}

theorem every_write {current : Option (Resource k)} {r : Resource k} (hc : Q (.create k r))
    (hu : ∀ v, Q (.update k (r.withVersion v))) : (write current r).Every Q := by
  cases current with
  | none => exact Program.every_bind (Program.every_perform hc) fun _ => trivial
  | some c => exact Program.every_bind (Program.every_perform (hu _)) fun _ => trivial

theorem every_rounds {key : Key} {change : Change σ k} (hg : Q (.get k key))
    (hw : ∀ st current r st', (∀ c, current = some c → c.key = key) →
      change st current = (.ok (some r), st') →
      Q (.create k r) ∧ ∀ v, Q (.update k (r.withVersion v))) (n : Nat) (st : σ) :
    (rounds key change n st).Every Q := by
  induction n generalizing st with
  | zero => trivial
  | succ n ih =>
    refine Program.every_attempt_bind hg fun a ha => ?_
    cases a with
    | error e => trivial
    | ok current =>
      have hk : ∀ c, current = some c → c.key = key := by
        rintro c rfl
        exact ha
      dsimp only
      split
      · trivial
      · trivial
      · rename_i r st' h
        obtain ⟨hc, hu⟩ := hw st current r st' hk h
        refine Program.every_bind (Program.every_attempt (every_write hc hu)) fun a => ?_
        cases a with
        | ok o => trivial
        | error e =>
          dsimp only
          split
          · exact ih st'
          · trivial

end Upsert

theorem every_upsert {k : Kind} {Q : Call → Prop} {key : Key} {n : Nat}
    {change : Option (Resource k) → Option (Resource k)} (hg : Q (.get k key))
    (hw : ∀ current r, (∀ c, current = some c → c.key = key) → change current = some r →
      Q (.create k r) ∧ ∀ v, Q (.update k (r.withVersion v))) :
    (upsert key n change).Every Q := by
  refine Program.every_bind (Upsert.every_rounds hg ?_ _ _) fun a => trivial
  intro st current r st' hc h
  simp only [Prod.mk.injEq, Except.ok.injEq] at h
  exact hw current r hc h.1

end TenantOperator
