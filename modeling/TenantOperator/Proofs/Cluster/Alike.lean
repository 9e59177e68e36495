import Mathlib.Data.Multiset.MapFold
import TenantOperator.Proofs.Cluster.Server
import TenantOperator.Proofs.Store.Versions

/-! The store and the client of a server side by side. Each of them hands out versions of its own,
so a caller passes on to each the versions that came from it; then both answer every call alike,
except that the client looks for the name of an object that is to be replaced and the store does
not. -/
namespace TenantOperator

def Error.bare : Error → Error
  | api _ => api none
  | alreadyExists .. => alreadyExists "" ""
  | conflict .. => conflict "" ""
  | notFound .. => notFound "" ""
  | invariant _ => invariant ""
  | validation _ => validation ""
  | serialization _ => serialization ""
  | store _ => store ""
  | cancelled => cancelled

namespace Resource
variable {k : Kind} {τ : String → String}

def unversioned (r : Resource k) : Resource k := r.withVersion none

def translated (τ : String → String) (r : Resource k) : Resource k :=
  r.withVersion (r.metadata.resourceVersion.map τ)

@[simp] theorem key_translated (r : Resource k) : (r.translated τ).key = r.key := rfl

end Resource

/-- What a caller can tell of an answer when versions, the order of a list and the words of an error
are of no account. -/
inductive Seen where
  | object (k : Kind) (r : Option (Resource k))
  | objects (k : Kind) (l : Multiset (Resource k))
  | removed (b : Bool)
  | failed (e : Error)

namespace Call

def seen : (c : Call) → Except Error c.Answer → Seen
  | _, .error e => .failed e.bare
  | .get k _, .ok r => .object k (r.map Resource.unversioned)
  | .list k _ _, .ok l => .objects k (l.map Resource.unversioned)
  | .create k _, .ok r | .update k _, .ok r => .object k (some r.unversioned)
  | .delete _ _, .ok b => .removed b

def translated (τ : String → String) : Call → Call
  | .create k r => .create k (r.translated τ)
  | .update k r => .update k (r.translated τ)
  | c => c

end Call

def Store.sees : Store → List Call → List Seen
  | _, [] => []
  | s, c :: l => c.seen (s.perform c).1 :: (s.perform c).2.sees l

namespace Cluster
namespace Server
variable (S : Server) (manager : Option String)

def perform (st : S.State) (c : Call) : Except Error c.Answer × S.State :=
  match exchange manager c with
  | .settled e => (.error e, st)
  | .send q next =>
    match q.wire? with
    | none => (.error (.api none), st)
    | some w => (next (S.serve st w).1, (S.serve st w).2)

def sees : S.State → List Call → List Seen
  | _, [] => []
  | st, c :: l => c.seen (S.perform manager st c).1 :: sees (S.perform manager st c).2 l

end Server

structure ProperKey (k : Kind) (key : Key) : Prop where
  name : IsPlain key.name
  ns : ∀ n ∈ key.ns, IsPlain n
  spaced : key.ns.isSome = k.isNamespaced

/-- An object that can be sent, with a name or without one. -/
structure ProperObject {k : Kind} (r : Resource k) : Prop where
  legible : r.Legible
  name : ∀ n ∈ r.metadata.name, IsPlain n
  ns : ∀ n ∈ r.metadata.ns, IsPlain n
  spaced : r.metadata.ns.isSome = k.isNamespaced

/-- Keys and objects have a namespace exactly if their kind has namespaces. -/
def ProperCall : Call → Prop
  | .get k key | .delete k key => ProperKey k key
  | .list k ns labels =>
    (∀ n ∈ ns, IsPlain n) ∧ (ns.isSome → k.isNamespaced) ∧ PlainLabels labels
  | .create _ r | .update _ r => ProperObject r

variable {S : Server} {τ : String → String} {manager : Option String} {s : Store}
  {st st' : S.State} {k : Kind} {key : Key} {r : Resource k}

def Translates (τ : String → String) (S : Server) : Prop :=
  ∀ v n, τ v = S.stamp n ↔ v = toString (n + 1)

/-- Store and server keep the same objects. -/
structure Alike (S : Server) (τ : String → String) (s : Store) (st : S.State) : Prop where
  calm : s.Calm
  kept : ∀ k key, S.kept st k key = (s.find? k key).map (Resource.translated τ)
  writes : S.writes st = s.version
  stamped : ∀ ⦃k : Kind⦄ ⦃key : Key⦄ ⦃r : Resource k⦄, s.find? k key = some r →
    ∃ n, r.metadata.resourceVersion = some (toString (n + 1))

namespace Alike

theorem start : Alike S τ {} S.start where
  calm := ⟨Store.Reached.fresh.filed, rfl⟩
  kept k key := by rw [S.kept_start]; cases k <;> rfl
  writes := S.writes_start
  stamped k key r h := by cases k <;> cases h

theorem same (h : Alike S τ s st) (hs : S.Same st st') : Alike S τ s st' where
  calm := h.calm
  kept k key := by rw [hs.1, h.kept]
  writes := by rw [hs.2, h.writes]
  stamped := h.stamped

theorem puts (h : Alike S τ s st) (hτ : Translates τ S) (hk : r.key = key)
    (hp : S.Puts st st' key (r.translated τ)) : Alike S τ (s.put key r) st' where
  calm := h.calm.put hk
  kept l key' := by
    by_cases he : l = k ∧ key' = key
    · obtain ⟨rfl, rfl⟩ := he
      rw [hp.put, Store.find?_put_self, Machine.stamped, h.writes, ← (hτ _ _).2 rfl]
      rfl
    · rw [hp.rest l key' he, Store.find?_put_of_ne s he, h.kept]
  writes := by
    rw [hp.writes, h.writes]
    rfl
  stamped l key' x hx := by
    by_cases he : l = k ∧ key' = key
    · obtain ⟨rfl, rfl⟩ := he
      rw [Store.find?_put_self] at hx
      cases hx
      exact ⟨s.version, rfl⟩
    · rw [Store.find?_put_of_ne s he] at hx
      exact h.stamped hx

theorem drops (h : Alike S τ s st) (hd : S.Drops st st' k key) :
    Alike S τ (s.remove k key) st' where
  calm := h.calm.remove k key
  kept l key' := by
    by_cases he : l = k ∧ key' = key
    · obtain ⟨rfl, rfl⟩ := he
      rw [hd.dropped, Store.find?_remove_self]
      rfl
    · rw [hd.rest l key' he, Store.find?_remove_of_ne s he, h.kept]
  writes := by
    rw [hd.writes, h.writes]
    exact (Store.version_setTable ..).symm
  stamped l key' x hx := by
    by_cases he : l = k ∧ key' = key
    · obtain ⟨rfl, rfl⟩ := he
      rw [Store.find?_remove_self] at hx
      cases hx
    · rw [Store.find?_remove_of_ne s he] at hx
      exact h.stamped hx

end Alike

section read
variable {α : Type} {interpret : Json.Draft → Option α} {refused : Nat → Except Error α}
  {reply : Reply}

theorem read_of_refuses {code : Nat} (h : reply.Refuses code) :
    read interpret refused reply = refused code := by
  rw [read, show reply.refusal? = some code from h]

theorem read_of_accepts {a : α} (h : reply.refusal? = none)
    (hb : reply.body.bind interpret = some a) :
    read interpret refused reply = .ok a := by
  rw [read, h]
  simp only [hb]

theorem bind_map_ofDraft? {β : Type} {d : Json.Decoder α} {f : α → β}
    {body : Option Json.Draft} {a : α}
    (h : body.bind d.ofDraft? = some a) : body.bind (f <$> d).ofDraft? = some (f a) := by
  obtain ⟨t, rfl, ht⟩ := Option.bind_eq_some_iff.1 h
  obtain ⟨j, hj, ha⟩ := Option.bind_eq_some_iff.1 ht
  refine Option.bind_eq_some_iff.2 ⟨t, rfl, Option.bind_eq_some_iff.2 ⟨j, hj, ?_⟩⟩
  show ((d.read j).map f).toOption = _
  cases hd : d.read j with
  | error e => simp [hd, Except.toOption] at ha
  | ok x =>
    rw [hd] at ha
    cases ha
    rfl

end read

theorem exists_asks (S : Server) (manager : Option String) (st : S.State) {c : Call}
    {q : Request} {next : Reply → Except Error c.Answer} (hq : exchange manager c = .send q next)
    (ht : q.target.Plain) :
    ∃ w : Wire, w.Asks q.method q.target ∧ w.body = q.body ∧ w.query = Query.ordered q.parameters ∧
      S.perform manager st c = (next (S.serve st w).1, (S.serve st w).2) := by
  refine ⟨⟨q.method, q.target.text, Query.ordered q.parameters, q.body⟩, ⟨rfl, rfl, ht⟩, rfl, rfl,
    ?_⟩
  simp only [Server.perform, hq, Request.wire?_eq ht]

theorem ProperKey.plain (h : ProperKey k key) : (⟨k, key.ns, some key.name⟩ : Target).Plain where
  ns := h.ns
  name n hn := by
    cases hn
    exact h.name
  spaced hs := h.spaced ▸ hs

theorem ProperObject.translated (h : ProperObject r) : ProperObject (r.translated τ) :=
  ⟨h.legible.withVersion _, h.name, h.ns, h.spaced⟩

theorem ProperObject.plain (h : ProperObject r) {name : Option String}
    (hn : ∀ n ∈ name, r.metadata.name = some n) : (⟨k, r.metadata.ns, name⟩ : Target).Plain where
  ns := h.ns
  name n hm := h.name n (hn n hm)
  spaced hs := h.spaced ▸ hs

/-- Store and client answer the call alike, and stay alike. -/
structure InStep (S : Server) (τ : String → String) (manager : Option String) (s : Store)
    (st : S.State) (c : Call) : Prop where
  seen : (c.translated τ).seen (S.perform manager st (c.translated τ)).1 = c.seen (s.perform c).1
  alike : Alike S τ (s.perform c).2 (S.perform manager st (c.translated τ)).2

theorem InStep.of_eq {c : Call} {a : Except Error c.Answer}
    {a' : Except Error (c.translated τ).Answer} {s' : Store}
    (hserver : S.perform manager st (c.translated τ) = (a', st')) (hstore : s.perform c = (a, s'))
    (hseen : (c.translated τ).seen a' = c.seen a) (halike : Alike S τ s' st') :
    InStep S τ manager s st c :=
  ⟨by rw [hserver, hstore]; exact hseen, by rw [hserver, hstore]; exact halike⟩

theorem nodup_keys_select (hs : s.Filed) (k : Kind) (ns : Option String) (labels : Labels) :
    ((s.select k ns labels).map Resource.key).Nodup := by
  have hinc : (s.table k).entries.Pairwise fun a b => compare a.1 b.1 = .lt :=
    (s.table k).increasing
  have hkey : ∀ e ∈ (s.table k).entries, e.2.key = e.1 := fun e he =>
    hs (SortedMap.find?_eq_some_iff.2 he)
  simp only [Store.select, List.map_map, List.Nodup, List.pairwise_map]
  refine (hinc.filter _).imp_of_mem fun {a b} ha hb hlt hn => ?_
  have he : a.1 = b.1 := by
    rw [← hkey a (List.mem_filter.1 ha).1, ← hkey b (List.mem_filter.1 hb).1]
    exact hn
  simp [he, Std.ReflCmp.compare_self] at hlt

theorem picks_iff {ns : Option String} {labels : Labels} : Store.picks ns labels key r ↔
    (∀ n ∈ ns, key.ns = some n) ∧ Carries r.metadata labels.entries := by
  have hns : (ns.isNone || key.ns == ns) = true ↔ ∀ n ∈ ns, key.ns = some n := by
    cases ns <;> simp
  rw [Store.picks, Bool.and_eq_true, hns]
  simp [Carries, Metadata.satisfies]

namespace Alike

theorem get (h : Alike S τ s st) (hk : ProperKey k key) : InStep S τ manager s st (.get k key) := by
  obtain ⟨w, hw, -, -, hp⟩ := exists_asks S manager st (c := .get k key)
    (show exchange manager (.get k key) = _ from if_neg (by simpa using hk.name.1)) hk.plain
  obtain ⟨hsame, hreply⟩ := S.get st hw
  rw [h.kept] at hreply
  have hserver : S.perform manager st (.get k key) =
      (.ok ((s.find? k key).map (Resource.translated τ)), (S.serve st w).2) := by
    refine hp.trans (Prod.ext ?_ rfl)
    cases hf : s.find? k key with
    | none =>
      rw [hf] at hreply
      exact read_of_refuses hreply
    | some r =>
      rw [hf] at hreply
      exact read_of_accepts hreply.1 (bind_map_ofDraft? hreply.2)
  refine .of_eq hserver (h.calm.perform _) ?_ (h.same hsame)
  simp only [Call.translated, Call.seen, Option.map_map]
  rfl

theorem perm_select (h : Alike S τ s st) {ns : Option String} {labels : Labels}
    {asked : List (String × String)} (hasked : asked = labels.entries) {l : List (Resource k)}
    (hnodup : l.Nodup) (hmem : ∀ r, r ∈ l ↔ ∃ key, S.kept st k key = some r ∧
      (∀ n ∈ ns, key.ns = some n) ∧ Carries r.metadata asked) :
    l.Perm ((s.select k ns labels).map (Resource.translated τ)) := by
  have hkeys : (((s.select k ns labels).map (Resource.translated τ)).map Resource.key).Nodup := by
    rw [List.map_map]
    exact nodup_keys_select h.calm.filed k ns labels
  refine (List.perm_ext_iff_of_nodup hnodup (hkeys.of_map _)).2 fun r' => ?_
  rw [hmem, List.mem_map]
  constructor
  · rintro ⟨key, hfind, hns, hcarries⟩
    rw [h.kept, Option.map_eq_some_iff] at hfind
    obtain ⟨r, hr, rfl⟩ := hfind
    rw [hasked] at hcarries
    exact ⟨r, Store.mem_select.2 ⟨key, hr, picks_iff.2 ⟨hns, hcarries⟩⟩, rfl⟩
  · rintro ⟨r, hr, rfl⟩
    obtain ⟨key, hfind, hp⟩ := Store.mem_select.1 hr
    obtain ⟨hns, hcarries⟩ := picks_iff.1 hp
    exact ⟨key, by rw [h.kept, hfind]; rfl, hns, hasked ▸ hcarries⟩

theorem list (h : Alike S τ s st) {ns : Option String} {labels : Labels}
    (hc : ProperCall (.list k ns labels)) : InStep S τ manager s st (.list k ns labels) := by
  obtain ⟨hns, hspaced, hlabels⟩ := hc
  obtain ⟨w, hw, -, hquery, hp⟩ := exists_asks S manager st (c := .list k ns labels)
    rfl ⟨hns, nofun, hspaced⟩
  obtain ⟨hsame, l, hreply, hnodup, hmem⟩ := S.list st hw
  have hserver : S.perform manager st (.list k ns labels) = (.ok l, (S.serve st w).2) :=
    hp.trans (Prod.ext (read_of_accepts hreply.1 hreply.2) rfl)
  have hasked : selection w.query = labels.entries := by
    rw [hquery]
    exact selection_selectorParameters hlabels
  have hperm : (l.map Resource.unversioned).Perm
      ((s.select k ns labels).map Resource.unversioned) := by
    have hmap := (h.perm_select hasked hnodup hmem).map Resource.unversioned
    rwa [List.map_map] at hmap
  exact .of_eq hserver (h.calm.perform _) (congrArg (Seen.objects k) (Multiset.coe_eq_coe.2 hperm))
    (h.same hsame)

theorem create (h : Alike S τ s st) (hτ : Translates τ S)
    (hm : ∀ n ∈ manager, n.utf8ByteSize ≤ maxManager) (hr : ProperObject r) :
    InStep S τ manager s st (.create k r) := by
  cases hn : r.metadata.name with
  | none =>
    have hserver :
        S.perform manager st (.create k (r.translated τ)) = (.error (.unnamed k), st) := by
      rw [Server.perform, exchange, show (r.translated τ).metadata.name = none from hn]
    have hstore : s.perform (.create k r) = (.error (.unnamed k), s) := by
      rw [h.calm.perform, Store.answer, Store.create, hn]
    exact .of_eq hserver hstore rfl h
  | some name =>
    have hshort : ¬manager.any fun n => n.utf8ByteSize > maxManager := by
      cases manager with
      | none => simp
      | some n => simpa using hm n rfl
    have hplain : (⟨k, r.metadata.ns, none⟩ : Target).Plain := hr.plain (by simp)
    obtain ⟨w, hw, hbody, -, hp⟩ := exists_asks S manager st (c := .create k (r.translated τ))
      (show exchange manager _ = _ by
        rw [exchange, show (r.translated τ).metadata.name = some name from hn]
        exact if_neg hshort) hplain
    have hreply := S.create st hw hbody hr.translated.legible hn
    have hstore : s.perform (.create k r) = s.create r := h.calm.perform _
    rw [Store.create_of_named hn] at hstore
    rw [h.kept, Resource.key_eq (r := r.translated τ) hn, Resource.key_translated] at hreply
    cases hf : s.find? k r.key with
    | none =>
      rw [hf] at hreply hstore
      rw [read_of_accepts hreply.1.1 hreply.1.2] at hp
      exact .of_eq hp hstore rfl (h.puts hτ rfl hreply.2)
    | some x =>
      rw [hf] at hreply hstore
      rw [read_of_refuses hreply.1] at hp
      exact .of_eq hp hstore rfl (h.same hreply.2)

theorem version_ne_iff (h : Alike S τ s st) (hτ : Translates τ S) {current : Resource k}
    (hf : s.find? k key = some current) :
    ((r.translated τ).metadata.resourceVersion.isSome ∧
      (current.translated τ).metadata.resourceVersion ≠ (r.translated τ).metadata.resourceVersion) ↔
    (r.metadata.resourceVersion.isSome ∧
      current.metadata.resourceVersion ≠ r.metadata.resourceVersion) := by
  obtain ⟨n, hn⟩ := h.stamped hf
  have hstamp : τ (toString (n + 1)) = S.stamp n := (hτ _ _).2 rfl
  cases hv : r.metadata.resourceVersion with
  | none => simp [Resource.translated, Resource.withVersion, hv]
  | some v =>
    have hiff : S.stamp n = τ v ↔ toString (n + 1) = v := by
      rw [eq_comm, hτ, eq_comm]
    simp only [Resource.translated, Resource.withVersion, hv, hn, Option.map_some, hstamp, ne_eq,
      Option.some.injEq, hiff, Option.isSome_some]

theorem update (h : Alike S τ s st) (hτ : Translates τ S) (hr : ProperObject r)
    (hn : r.metadata.name.isSome) : InStep S τ manager s st (.update k r) := by
  obtain ⟨name, hn⟩ := Option.isSome_iff_exists.1 hn
  have hempty : ¬name.isEmpty := by simpa using (hr.name name hn).1
  have hplain : (⟨k, r.metadata.ns, some name⟩ : Target).Plain :=
    hr.plain fun n hm => by cases hm; exact hn
  obtain ⟨w, hw, hbody, -, hp⟩ := exists_asks S manager st (c := .update k (r.translated τ))
    (show exchange manager _ = _ by
      rw [exchange, show (r.translated τ).metadata.name = some name from hn]
      exact if_neg hempty) hplain
  have hreply := S.replace st hw hbody hr.translated.legible hn
  have hstore : s.perform (.update k r) = s.update r := h.calm.perform _
  rw [h.kept, Resource.key_eq (r := r.translated τ) hn, Resource.key_translated] at hreply
  rw [Store.update] at hstore
  cases hf : s.find? k r.key with
  | none =>
    rw [hf] at hreply hstore
    rw [read_of_refuses hreply.1] at hp
    exact .of_eq hp hstore rfl (h.same hreply.2)
  | some current =>
    rw [hf] at hreply hstore
    simp only [Option.map_some, h.version_ne_iff hτ hf] at hreply
    simp only [Bool.and_eq_true, bne_iff_ne] at hstore
    by_cases hv : r.metadata.resourceVersion.isSome ∧
        current.metadata.resourceVersion ≠ r.metadata.resourceVersion
    · rw [if_pos hv] at hreply hstore
      rw [read_of_refuses hreply.1] at hp
      exact .of_eq hp hstore rfl (h.same hreply.2)
    · rw [if_neg hv] at hreply hstore
      rw [read_of_accepts hreply.1.1 hreply.1.2] at hp
      exact .of_eq hp hstore rfl (h.puts hτ rfl hreply.2)

theorem delete (h : Alike S τ s st) (hk : ProperKey k key) :
    InStep S τ manager s st (.delete k key) := by
  obtain ⟨w, hw, -, -, hp⟩ := exists_asks S manager st (c := .delete k key)
    (show exchange manager (.delete k key) = _ from if_neg (by simpa using hk.name.1)) hk.plain
  have hreply := S.delete st hw
  rw [h.kept] at hreply
  have hstore : s.perform (.delete k key) = (.ok (s.find? k key).isSome, s.remove k key) :=
    h.calm.perform _
  cases hf : s.find? k key with
  | none =>
    rw [hf] at hreply hstore
    rw [Store.remove_of_find?_eq_none hf] at hstore
    rw [read_of_refuses hreply.1] at hp
    exact .of_eq hp hstore rfl (h.same hreply.2)
  | some r =>
    rw [hf] at hreply hstore
    rw [read_of_accepts hreply.1.1 hreply.1.2] at hp
    exact .of_eq hp hstore rfl (h.drops hreply.2)

end Alike

/-- Whether the name of an object that is to be replaced is there. -/
def Named : Call → Prop
  | .update _ r => r.metadata.name.isSome
  | _ => True

theorem Alike.step (h : Alike S τ s st) (hτ : Translates τ S)
    (hm : ∀ n ∈ manager, n.utf8ByteSize ≤ maxManager) {c : Call} (hc : ProperCall c)
    (hn : Named c) : InStep S τ manager s st c := by
  cases c with
  | get k key => exact h.get hc
  | list k ns labels => exact h.list hc
  | create k r => exact h.create hτ hm hc
  | update k r => exact h.update hτ hc hn
  | delete k key => exact h.delete hc

/-- Without a name the client does not ask, while the store looks under the empty name, or under the
one that a name was to be generated from. -/
theorem seen_ne_of_not_named {c : Call} (hn : ¬Named c) (s : Store) (st : S.State) :
    c.seen (s.answer c).1 ≠ (c.translated τ).seen (S.perform manager st (c.translated τ)).1 := by
  cases c with
  | update k r =>
    have hnone : r.metadata.name = none := by simpa [Named] using hn
    have hserver :
        S.perform manager st (.update k (r.translated τ)) = (.error (.unnamed k), st) := by
      rw [Server.perform, exchange, show (r.translated τ).metadata.name = none from hnone]
    rw [Call.translated, hserver, Store.answer, Store.update]
    intro h
    split at h
    · cases h
    · split at h <;> cases h
  | get | list | create | delete => exact absurd trivial hn

theorem Alike.sees_eq_iff (h : Alike S τ s st) (hτ : Translates τ S)
    (hm : ∀ n ∈ manager, n.utf8ByteSize ≤ maxManager) {l : List Call}
    (hl : ∀ c ∈ l, ProperCall c) :
    s.sees l = S.sees manager st (l.map (Call.translated τ)) ↔ ∀ c ∈ l, Named c := by
  induction l generalizing s st with
  | nil => simp [Store.sees, Server.sees]
  | cons c l ih =>
    simp only [Store.sees, List.map_cons, Server.sees, List.cons.injEq, List.forall_mem_cons]
    by_cases hn : Named c
    · have hstep := h.step hτ hm (hl c List.mem_cons_self) hn
      rw [ih hstep.alike fun c hc => hl c (List.mem_cons_of_mem _ hc)]
      exact and_congr_left' ⟨fun _ => hn, fun _ => hstep.seen.symm⟩
    · refine iff_of_false (fun heq => ?_) fun hc => hn hc.1
      rw [h.calm.perform] at heq
      exact seen_ne_of_not_named hn s st heq.1

/-- The store and the client of any server answer all calls alike exactly if every object that is
to be replaced has a name. -/
theorem sees_eq_sees_iff (S : Server) (hτ : Translates τ S)
    (hm : ∀ n ∈ manager, n.utf8ByteSize ≤ maxManager) {l : List Call}
    (hl : ∀ c ∈ l, ProperCall c) :
    ({} : Store).sees l = S.sees manager S.start (l.map (Call.translated τ)) ↔
      ∀ (k : Kind) (r : Resource k), .update k r ∈ l → r.metadata.name.isSome := by
  rw [Alike.start.sees_eq_iff hτ hm hl]
  constructor
  · exact fun h k r hr => h _ hr
  · intro h c hc
    cases c with
    | update k r => exact h k r hc
    | get | list | create | delete => trivial

section labelled

theorem translates_shelf : Translates ("r" ++ ·) Shelf.server := by
  intro v n
  show "r" ++ v = "r" ++ toString (n + 1) ↔ _
  rw [String.append_right_inj]

def labelled : ConfigMap where
  metadata := { name := some "a", ns := some "dc1", labels := some (.singleton "x" "y") }
  content := {}

theorem proper_labelled (v : Option String) : ProperObject (labelled.withVersion v) where
  legible v := by cases v <;> rfl
  name n hn := by
    cases hn
    decide
  ns n hn := by
    cases hn
    decide
  spaced := rfl

/-- Calls on one object, the second replacement with a version that is stale by then. -/
def labelledCalls : List Call :=
  [.create .configMap labelled, .get .configMap labelled.key,
    .update .configMap (labelled.withVersion (some "1")),
    .update .configMap (labelled.withVersion (some "1")),
    .list .configMap (some "dc1") (.singleton "x" "y"), .delete .configMap labelled.key]

theorem plain_label : PlainLabels (.singleton "x" "y") := by
  intro e he
  have he : e = ("x", "y") := List.mem_singleton.1 he
  rw [he]
  exact ⟨⟨by decide, by decide⟩, ⟨by decide, by decide⟩⟩

theorem proper_labelledCalls : ∀ c ∈ labelledCalls, ProperCall c := by
  have hkey : ProperKey .configMap labelled.key :=
    ⟨by decide, fun n hn => by cases hn; decide, rfl⟩
  have hns : ∀ n ∈ some "dc1", IsPlain n := fun n hn => by cases hn; decide
  intro c hc
  simp only [labelledCalls, List.mem_cons, List.not_mem_nil, or_false] at hc
  rcases hc with rfl | rfl | rfl | rfl | rfl | rfl
  · exact proper_labelled none
  · exact hkey
  · exact proper_labelled _
  · exact proper_labelled _
  · exact ⟨hns, fun _ => rfl, plain_label⟩
  · exact hkey

theorem sees_labelledCalls :
    Translates ("r" ++ ·) Shelf.server ∧ (∀ n ∈ some Naming.manager, n.utf8ByteSize ≤ maxManager) ∧
    (∀ c ∈ labelledCalls, ProperCall c) ∧
    ({} : Store).sees labelledCalls = Shelf.server.sees (some Naming.manager) Shelf.server.start
      (labelledCalls.map (Call.translated ("r" ++ ·))) := by
  have hm : ∀ n ∈ some Naming.manager, n.utf8ByteSize ≤ maxManager := by
    intro n hn
    cases hn
    decide
  refine ⟨translates_shelf, hm, proper_labelledCalls,
    (sees_eq_sees_iff Shelf.server translates_shelf hm proper_labelledCalls).2 fun k r hr => ?_⟩
  simp only [labelledCalls, List.mem_cons, List.not_mem_nil, or_false] at hr
  rcases hr with hr | hr | hr | hr | hr | hr <;> cases hr <;> rfl

def nameless : ConfigMap where
  metadata := { ns := some "dc1" }
  content := {}

theorem not_forall_sees_eq :
    ¬∀ (S : Server) (τ : String → String) (manager : Option String), Translates τ S →
      (∀ n ∈ manager, n.utf8ByteSize ≤ maxManager) → ∀ l : List Call, (∀ c ∈ l, ProperCall c) →
        ({} : Store).sees l = S.sees manager S.start (l.map (Call.translated τ)) := by
  intro h
  have hproper : ProperObject nameless :=
    ⟨fun v => by cases v <;> rfl, nofun, fun n hn => by cases hn; decide, rfl⟩
  have heq := h Shelf.server _ none translates_shelf nofun [.update .configMap nameless]
    fun c hc => by cases List.mem_singleton.1 hc; exact hproper
  have hstore : ({} : Store).sees [.update .configMap nameless] = [.failed (.notFound "" "")] := rfl
  have hserver : Shelf.server.sees none Shelf.server.start
      ([.update .configMap nameless].map (Call.translated ("r" ++ ·))) =
        [.failed (.validation "")] := rfl
  rw [hstore, hserver] at heq
  cases heq

end labelled

end Cluster
end TenantOperator
