import Mathlib.Data.List.Nodup
import Mathlib.Logic.Function.Basic
import Std.Data.String.ToNat
import TenantOperator.Proofs.Cluster.Wire
import TenantOperator.Proofs.Store.Calm

/-! Servers of the cluster's API. A server keeps objects by kind, namespace and name, gives every
write a version of its own, and says in its replies what became of a request. -/
namespace TenantOperator

namespace Resource
variable {k : Kind} {r : Resource k}

/-- The object's document reads back as the object. -/
def Reads (r : Resource k) : Prop := (decode k).ofDraft? (.ofJson r.encode) = some r

instance (r : Resource k) : Decidable r.Reads := inferInstanceAs (Decidable (_ = _))

/-- So it does with any version. -/
def Legible (r : Resource k) : Prop := ∀ v, (r.withVersion v).Reads

theorem Legible.withVersion (h : r.Legible) (v : Option String) : (r.withVersion v).Legible :=
  fun v' => h v'

theorem Legible.reads (h : r.Legible) : r.Reads := h r.metadata.resourceVersion

end Resource

namespace Cluster
variable {k : Kind}

namespace Reply

def Refuses (reply : Reply) (code : Nat) : Prop := reply.refusal? = some code

def Shows (reply : Reply) (r : Resource k) : Prop :=
  reply.refusal? = none ∧ reply.body.bind (Resource.decode k).ofDraft? = some r

def Lists (reply : Reply) (l : List (Resource k)) : Prop :=
  reply.refusal? = none ∧ reply.body.bind (Prod.snd <$> listDecoder k).ofDraft? = some l

def Confirms (reply : Reply) (k : Kind) : Prop :=
  reply.refusal? = none ∧ reply.body.bind (deleted? k) = some true

end Reply

def Wire.Asks (w : Wire) (m : Method) (t : Target) : Prop :=
  w.method = m ∧ w.path = t.text ∧ t.Plain

def Carries (m : Metadata) (asked : List (String × String)) : Prop :=
  ∀ e ∈ asked, m.labelMap.find? e.1 = some e.2

structure Machine where
  State : Type
  start : State
  serve : State → Wire → Reply × State
  kept : State → (k : Kind) → Key → Option (Resource k)
  /-- Writes so far. -/
  writes : State → Nat
  /-- The version that a write gets, by the number of writes before it. -/
  stamp : Nat → String

namespace Machine
variable (m : Machine) (st st' : m.State)

def Same : Prop := m.kept st' = m.kept st ∧ m.writes st' = m.writes st

def stamped (r : Resource k) : Resource k := r.withVersion (some (m.stamp (m.writes st)))

def SameOff (k : Kind) (key : Key) : Prop :=
  ∀ l key', ¬(l = k ∧ key' = key) → m.kept st' l key' = m.kept st l key'

structure Puts (key : Key) (r : Resource k) : Prop where
  put : m.kept st' k key = some (m.stamped st r)
  rest : m.SameOff st st' k key
  writes : m.writes st' = m.writes st + 1

structure Drops (k : Kind) (key : Key) : Prop where
  dropped : m.kept st' k key = none
  rest : m.SameOff st st' k key
  writes : m.writes st' = m.writes st

end Machine

/-- A machine that serves as the cluster's API does. -/
structure Server extends Machine where
  /-- No two writes get the same version. -/
  fresh : Function.Injective stamp
  kept_start : ∀ k key, kept start k key = none
  writes_start : writes start = 0
  get : ∀ st {w k key}, w.Asks .get ⟨k, key.ns, some key.name⟩ →
    toMachine.Same st (serve st w).2 ∧
      match kept st k key with
      | none => (serve st w).1.Refuses 404
      | some r => (serve st w).1.Shows r
  list : ∀ st {w k ns}, w.Asks .get ⟨k, ns, none⟩ →
    toMachine.Same st (serve st w).2 ∧ ∃ l : List (Resource k), (serve st w).1.Lists l ∧ l.Nodup ∧
      ∀ r, r ∈ l ↔ ∃ key, kept st k key = some r ∧ (∀ n ∈ ns, key.ns = some n) ∧
        Carries r.metadata (selection w.query)
  create : ∀ st {w k} {r : Resource k} {name}, w.Asks .post ⟨k, r.metadata.ns, none⟩ →
    w.body = some r.encode → r.Legible → r.metadata.name = some name →
      match kept st k ⟨name, r.metadata.ns⟩ with
      | some _ => (serve st w).1.Refuses 409 ∧ toMachine.Same st (serve st w).2
      | none => (serve st w).1.Shows (toMachine.stamped st r) ∧
          toMachine.Puts st (serve st w).2 ⟨name, r.metadata.ns⟩ r
  replace : ∀ st {w k} {r : Resource k} {name}, w.Asks .put ⟨k, r.metadata.ns, some name⟩ →
    w.body = some r.encode → r.Legible → r.metadata.name = some name →
      match kept st k ⟨name, r.metadata.ns⟩ with
      | none => (serve st w).1.Refuses 404 ∧ toMachine.Same st (serve st w).2
      | some current =>
        if r.metadata.resourceVersion.isSome ∧
            current.metadata.resourceVersion ≠ r.metadata.resourceVersion then
          (serve st w).1.Refuses 409 ∧ toMachine.Same st (serve st w).2
        else (serve st w).1.Shows (toMachine.stamped st r) ∧
          toMachine.Puts st (serve st w).2 ⟨name, r.metadata.ns⟩ r
  delete : ∀ st {w k key}, w.Asks .delete ⟨k, key.ns, some key.name⟩ →
      match kept st k key with
      | none => (serve st w).1.Refuses 404 ∧ toMachine.Same st (serve st w).2
      | some _ => (serve st w).1.Confirms k ∧ toMachine.Drops st (serve st w).2 k key

/-- Objects in the order in which they were written last. -/
structure Shelf where
  objects : (k : Kind) → List (Resource k) := fun _ => []
  writes : Nat := 0
  distinct : ∀ k, ((objects k).map Resource.key).Nodup := by simp
  reads : ∀ k, ∀ r ∈ objects k, r.Reads := by simp

namespace Shelf

def find? (s : Shelf) (k : Kind) (key : Key) : Option (Resource k) :=
  (s.objects k).find? (·.key = key)

def others (s : Shelf) (k : Kind) (key : Key) : List (Resource k) :=
  (s.objects k).filter (·.key ≠ key)

def setObjects (s : Shelf) (k : Kind) (l : List (Resource k)) (writes : Nat)
    (hd : (l.map Resource.key).Nodup) (hr : ∀ r ∈ l, r.Reads) : Shelf where
  objects := Function.update s.objects k l
  writes := writes
  distinct k' := by
    by_cases h : k' = k
    · subst h
      rwa [Function.update_self]
    · rw [Function.update_of_ne h]
      exact s.distinct k'
  reads k' := by
    by_cases h : k' = k
    · subst h
      rwa [Function.update_self]
    · rw [Function.update_of_ne h]
      exact s.reads k'

def drop (s : Shelf) (k : Kind) (key : Key) : Shelf :=
  s.setObjects k (s.others k key) s.writes
    ((s.distinct k).sublist (List.filter_sublist.map _))
    fun r hr => s.reads k r (List.mem_filter.1 hr).1

def put (s : Shelf) (r : Resource k) (hr : r.Reads) : Shelf :=
  s.setObjects k (s.others k r.key ++ [r]) (s.writes + 1)
    (by
      rw [List.map_append, List.nodup_append]
      refine ⟨(s.distinct k).sublist (List.filter_sublist.map _), by simp, ?_⟩
      intro key hkey key' hkey'
      obtain ⟨x, hx, rfl⟩ := List.mem_map.1 hkey
      have hne : x.key ≠ r.key := by simpa using (List.mem_filter.1 hx).2
      simpa [List.mem_singleton.1 hkey'] using hne)
    fun x hx => by
      rcases List.mem_append.1 hx with hx | hx
      · exact s.reads k x (List.mem_filter.1 hx).1
      · rw [List.mem_singleton.1 hx]
        exact hr

def stamp (n : Nat) : String := "r" ++ toString (n + 1)

def refusal (code : Nat) : Reply :=
  .ofJson code (.obj [("kind", .str "Status"), ("status", .str "Failure"), ("code", .int code)])

/-- Takes the object of a request under the next version, if it can be read back then. -/
def write (s : Shelf) (r : Resource k) : Reply × Shelf :=
  let stored := r.withVersion (some (stamp s.writes))
  if h : stored.Reads then (.ofJson 200 stored.encode, s.put stored h) else (refusal 422, s)

def listDocument (l : List (Resource k)) : Json := .obj [("items", .arr (l.map Resource.encode))]

def success : Json := .obj [("kind", .str "Status"), ("status", .str "Success")]

def select (s : Shelf) (k : Kind) (ns : Option String) (asked : List (String × String)) :
    List (Resource k) :=
  (s.objects k).filter fun r => (ns.isNone || r.key.ns = ns) &&
    asked.all fun e => r.metadata.labelMap.find? e.1 = some e.2

def received? (w : Wire) (k : Kind) : Option (Resource k) :=
  w.body.bind fun j => (Resource.decode k).ofDraft? (.ofJson j)

def handle (s : Shelf) (w : Wire) : Target → Reply × Shelf
  | ⟨k, ns, some name⟩ =>
    match w.method with
    | .get =>
      match s.find? k ⟨name, ns⟩ with
      | some r => (.ofJson 200 r.encode, s)
      | none => (refusal 404, s)
    | .put =>
      match received? w k with
      | some r =>
        match s.find? k ⟨name, ns⟩ with
        | none => (refusal 404, s)
        | some current =>
          if r.metadata.resourceVersion.isSome ∧
              current.metadata.resourceVersion ≠ r.metadata.resourceVersion then (refusal 409, s)
          else s.write r
      | none => (refusal 400, s)
    | .delete =>
      match s.find? k ⟨name, ns⟩ with
      | some _ => (.ofJson 200 success, s.drop k ⟨name, ns⟩)
      | none => (refusal 404, s)
    | .post => (refusal 405, s)
  | ⟨k, ns, none⟩ =>
    match w.method with
    | .get => (.ofJson 200 (listDocument (s.select k ns (selection w.query))), s)
    | .post =>
      match received? w k with
      | some r => if (s.find? k r.key).isSome then (refusal 409, s) else s.write r
      | none => (refusal 400, s)
    | _ => (refusal 405, s)

def serve (s : Shelf) (w : Wire) : Reply × Shelf :=
  match Target.ofPath? w.path with
  | some t => s.handle w t
  | none => (refusal 404, s)

theorem refuses_404 : (refusal 404).Refuses 404 := rfl

theorem refuses_409 : (refusal 409).Refuses 409 := rfl

theorem confirms_success : (Reply.ofJson 200 success).Confirms k := ⟨rfl, rfl⟩

theorem shows_encode {r : Resource k} (hr : r.Reads) : (Reply.ofJson 200 r.encode).Shows r :=
  ⟨rfl, hr⟩

theorem exists_conformItems {l : List (Resource k)} (hl : ∀ r ∈ l, r.Reads) :
    ∃ js, Json.Draft.conformItems (Resource.decode k).shape
        (Json.Draft.ofItems (l.map Resource.encode)) = some js ∧
      js.mapM (Resource.decode k).read = .ok l := by
  induction l with
  | nil => exact ⟨[], rfl, rfl⟩
  | cons r l ih =>
    obtain ⟨js, hjs, hread⟩ := ih fun x hx => hl x (List.mem_cons_of_mem _ hx)
    obtain ⟨j, hj, hr⟩ := Option.bind_eq_some_iff.1 (hl r List.mem_cons_self)
    have hok : (Resource.decode k).read j = .ok r := by
      cases hd : (Resource.decode k).read j with
      | error e => simp [hd, Except.toOption] at hr
      | ok x => simpa [hd, Except.toOption] using hr
    refine ⟨j :: js, ?_, ?_⟩
    · simp [Json.Draft.ofItems, Json.Draft.conformItems, hj, hjs]
    · simp [List.mapM_cons, hok, hread]
      rfl

theorem lists_listDocument {l : List (Resource k)} (hl : ∀ r ∈ l, r.Reads) :
    (Reply.ofJson 200 (listDocument l)).Lists l := by
  obtain ⟨js, hjs, hread⟩ := exists_conformItems hl
  have hitems : Json.Draft.conform (.items (Resource.decode k).shape)
      (.arr (Json.Draft.ofItems (l.map Resource.encode))) = some (.arr js) := by
    rw [Json.Draft.conform, hjs]
    rfl
  -- Of the document only the items are given, so only their reading counts.
  have hconform : (Json.Draft.ofJson (listDocument l)).conform (listDecoder k).shape =
      some (.obj [("items", .arr js)]) :=
    congrArg (fun o => (o.bind fun j => some [("items", j)]).map Json.obj) hitems
  have hdecode : (listDecoder k).read (.obj [("items", .arr js)]) = .ok ({}, l) := by
    have hlist : (Json.Decoder.list (Resource.decode k)).read (.arr js) = .ok l := hread
    have hoptional : (Json.Decoder.optional (Json.Decoder.list (Resource.decode k))).read
        (.arr js) = .ok (some l) := congrArg (Except.map some) hlist
    -- The items are looked at twice, once for faults and once for the value.
    show (do
      let _ ← (do
        let _ ← ((Json.Decoder.optional (Json.Decoder.list (Resource.decode k))).read
          (.arr js)).map fun _ => ()
        return ⟨⟩ : Except Json.Fault PUnit)
      let items ← (Json.Decoder.optional (Json.Decoder.list (Resource.decode k))).read (.arr js)
      return (({} : ListMetadata), items.getD [])) = _
    rw [hoptional]
    rfl
  refine ⟨rfl, ?_⟩
  show ((Json.Draft.ofJson (listDocument l)).conform (listDecoder k).shape).bind
    (fun j => (((listDecoder k).read j).map Prod.snd).toOption) = some l
  rw [hconform]
  show (((listDecoder k).read (.obj [("items", .arr js)])).map Prod.snd).toOption = some l
  rw [hdecode]
  rfl

section kept
variable {s : Shelf} {w : Wire} {m : Method} {t : Target} {key : Key} {r : Resource k}

theorem find?_eq_some_iff : s.find? k key = some r ↔ r ∈ s.objects k ∧ r.key = key := by
  constructor
  · intro h
    exact ⟨List.mem_of_find?_eq_some h, by simpa using List.find?_some h⟩
  · rintro ⟨hr, rfl⟩
    cases h : s.find? k r.key with
    | none =>
      have hnone := List.find?_eq_none.1 h r hr
      simp at hnone
    | some x =>
      have hx : x.key = r.key := by simpa using List.find?_some h
      rw [List.inj_on_of_nodup_map (s.distinct k) (List.mem_of_find?_eq_some h) hr hx]

theorem reads_of_find? (h : s.find? k key = some r) : r.Reads :=
  s.reads k r (find?_eq_some_iff.1 h).1

theorem find?_put_self (hr : r.Reads) : (s.put r hr).find? k r.key = some r := by
  refine find?_eq_some_iff.2 ⟨?_, rfl⟩
  simp [put, setObjects]

theorem find?_put_of_ne {l : Kind} (hr : r.Reads) (h : ¬(l = k ∧ key = r.key)) :
    (s.put r hr).find? l key = s.find? l key := by
  by_cases hl : l = k
  · subst hl
    have hne : key ≠ r.key := fun he => h ⟨rfl, he⟩
    ext x
    simp only [find?_eq_some_iff, put, setObjects, Function.update_self, others, List.mem_append,
      List.mem_filter, List.mem_singleton, decide_eq_true_eq]
    constructor
    · rintro ⟨⟨hx, -⟩ | rfl, hk⟩
      · exact ⟨hx, hk⟩
      · exact absurd hk.symm hne
    · rintro ⟨hx, rfl⟩
      exact ⟨.inl ⟨hx, hne⟩, rfl⟩
  · simp [find?, put, setObjects, Function.update_of_ne hl]

theorem find?_drop_self : (s.drop k key).find? k key = none := by
  rw [find?, List.find?_eq_none]
  simp [drop, setObjects, others]

theorem find?_drop_of_ne {l : Kind} {key' : Key} (h : ¬(l = k ∧ key' = key)) :
    (s.drop k key).find? l key' = s.find? l key' := by
  by_cases hl : l = k
  · subst hl
    have hne : key' ≠ key := fun he => h ⟨rfl, he⟩
    ext x
    simp only [find?_eq_some_iff, drop, setObjects, Function.update_self, others, List.mem_filter,
      decide_eq_true_eq]
    constructor
    · rintro ⟨⟨hx, -⟩, hk⟩
      exact ⟨hx, hk⟩
    · rintro ⟨hx, rfl⟩
      exact ⟨⟨hx, hne⟩, rfl⟩
  · simp [find?, drop, setObjects, Function.update_of_ne hl]

theorem mem_select {ns : Option String} {asked : List (String × String)} :
    r ∈ s.select k ns asked ↔ ∃ key, s.find? k key = some r ∧ (∀ n ∈ ns, key.ns = some n) ∧
      Carries r.metadata asked := by
  have hns : (ns.isNone || r.key.ns = ns) = true ↔ ∀ n ∈ ns, r.key.ns = some n := by
    cases ns with
    | none => simp
    | some n =>
      rw [Option.isNone_some, Bool.false_or, decide_eq_true_iff]
      simp
  have hasked : (asked.all fun e => r.metadata.labelMap.find? e.1 = some e.2) = true ↔
      Carries r.metadata asked := by simp [Carries]
  rw [select, List.mem_filter, Bool.and_eq_true, hns, hasked]
  constructor
  · rintro ⟨hr, hspace, hcarries⟩
    exact ⟨r.key, find?_eq_some_iff.2 ⟨hr, rfl⟩, hspace, hcarries⟩
  · rintro ⟨key, hfind, hspace, hcarries⟩
    obtain ⟨hr, rfl⟩ := find?_eq_some_iff.1 hfind
    exact ⟨hr, hspace, hcarries⟩

theorem serve_of_asks (h : w.Asks m t) : s.serve w = s.handle w t := by
  rw [serve, h.2.1, Target.ofPath?_text h.2.2]

theorem received?_eq (hr : r.Legible) (hw : w.body = some r.encode) : received? w k = some r := by
  rw [received?, hw]
  exact hr.reads

theorem write_eq (hr : r.Legible) :
    s.write r = (.ofJson 200 (r.withVersion (some (stamp s.writes))).encode,
      s.put (r.withVersion (some (stamp s.writes))) (hr _)) := by
  rw [write, dif_pos (hr _)]

theorem stamp_injective : Function.Injective stamp := by
  intro m n h
  have h : toString (m + 1) = toString (n + 1) := by simpa [stamp, String.append_right_inj] using h
  have := Nat.repr_injective h
  omega

end kept

def machine : Machine where
  State := Shelf
  start := {}
  serve := serve
  kept := find?
  writes := writes
  stamp := stamp

theorem puts_write {s : Shelf} {r : Resource k} (hr : r.Legible) :
    machine.Puts s (s.write r).2 r.key r where
  put := by
    rw [write_eq hr]
    exact find?_put_self (hr (some (stamp s.writes)))
  rest l key' h := by
    rw [write_eq hr]
    exact find?_put_of_ne (hr _) h
  writes := by
    rw [write_eq hr]
    rfl

theorem shows_write {s : Shelf} {r : Resource k} (hr : r.Legible) :
    (s.write r).1.Shows (machine.stamped s r) := by
  rw [write_eq hr]
  exact shows_encode (hr _)

section serve
variable (s : Shelf) {w : Wire} {key : Key} {r : Resource k} {ns : Option String} {name : String}

theorem same : machine.Same s s := ⟨rfl, rfl⟩

theorem serve_get (h : w.Asks .get ⟨k, key.ns, some key.name⟩) :
    machine.Same s (s.serve w).2 ∧ match s.find? k key with
      | none => (s.serve w).1.Refuses 404
      | some r => (s.serve w).1.Shows r := by
  rw [serve_of_asks h, handle, h.1]
  dsimp only
  cases hf : s.find? k key with
  | none => exact ⟨same s, refuses_404⟩
  | some r => exact ⟨same s, shows_encode (reads_of_find? hf)⟩

theorem serve_list (h : w.Asks .get ⟨k, ns, none⟩) :
    machine.Same s (s.serve w).2 ∧ ∃ l : List (Resource k), (s.serve w).1.Lists l ∧ l.Nodup ∧
      ∀ r, r ∈ l ↔ ∃ key, s.find? k key = some r ∧ (∀ n ∈ ns, key.ns = some n) ∧
        Carries r.metadata (selection w.query) := by
  rw [serve_of_asks h, handle, h.1]
  refine ⟨same s, _, lists_listDocument ?_, ?_, fun r => mem_select⟩
  · exact fun r hr => s.reads k r (List.mem_filter.1 hr).1
  · exact ((s.distinct k).of_map _).filter _

theorem serve_create (h : w.Asks .post ⟨k, r.metadata.ns, none⟩) (hbody : w.body = some r.encode)
    (hr : r.Legible) (hname : r.metadata.name = some name) :
    match s.find? k ⟨name, r.metadata.ns⟩ with
      | some _ => (s.serve w).1.Refuses 409 ∧ machine.Same s (s.serve w).2
      | none => (s.serve w).1.Shows (machine.stamped s r) ∧
          machine.Puts s (s.serve w).2 ⟨name, r.metadata.ns⟩ r := by
  rw [serve_of_asks h, handle, h.1]
  dsimp only
  rw [received?_eq hr hbody, Resource.key_eq hname]
  cases hf : s.find? k r.key with
  | none =>
    dsimp only
    rw [if_neg (by simp [hf])]
    exact ⟨shows_write hr, puts_write hr⟩
  | some x =>
    dsimp only
    rw [if_pos (by simp [hf])]
    exact ⟨refuses_409, same s⟩

theorem serve_replace (h : w.Asks .put ⟨k, r.metadata.ns, some name⟩)
    (hbody : w.body = some r.encode) (hr : r.Legible) (hname : r.metadata.name = some name) :
    match s.find? k ⟨name, r.metadata.ns⟩ with
      | none => (s.serve w).1.Refuses 404 ∧ machine.Same s (s.serve w).2
      | some current =>
        if r.metadata.resourceVersion.isSome ∧
            current.metadata.resourceVersion ≠ r.metadata.resourceVersion then
          (s.serve w).1.Refuses 409 ∧ machine.Same s (s.serve w).2
        else (s.serve w).1.Shows (machine.stamped s r) ∧
          machine.Puts s (s.serve w).2 ⟨name, r.metadata.ns⟩ r := by
  rw [serve_of_asks h, handle, h.1]
  dsimp only
  rw [received?_eq hr hbody, Resource.key_eq hname]
  cases hf : s.find? k r.key with
  | none => exact ⟨refuses_404, same s⟩
  | some current =>
    dsimp only
    split
    · exact ⟨refuses_409, same s⟩
    · exact ⟨shows_write hr, puts_write hr⟩

theorem serve_delete (h : w.Asks .delete ⟨k, key.ns, some key.name⟩) :
    match s.find? k key with
      | none => (s.serve w).1.Refuses 404 ∧ machine.Same s (s.serve w).2
      | some _ => (s.serve w).1.Confirms k ∧ machine.Drops s (s.serve w).2 k key := by
  rw [serve_of_asks h, handle, h.1]
  dsimp only
  cases hf : s.find? k key with
  | none => exact ⟨refuses_404, same s⟩
  | some r =>
    exact ⟨confirms_success, find?_drop_self, fun l key' hne => find?_drop_of_ne hne, rfl⟩

end serve

def server : Server where
  toMachine := machine
  fresh := stamp_injective
  kept_start _ _ := rfl
  writes_start := rfl
  get st _ _ _ := serve_get st
  list st _ _ _ := serve_list st
  create st _ _ _ _ := serve_create st
  replace st _ _ _ _ := serve_replace st
  delete st _ _ _ := serve_delete st

end Shelf
end Cluster
end TenantOperator
