import TenantOperator.Resource.Basic
import TenantOperator.Error

/-! The object store: one table per kind, a version counter that stamps every write, and a queue of
faults that are still to be met. -/
namespace TenantOperator

inductive Verb where
  | get | list | create | update | delete
  deriving DecidableEq

/-- The outcome of a call that is struck by a fault. -/
inductive Fault where
  | conflict | failure
  deriving DecidableEq

/-- A fault that strikes the next call of its operation and kind. -/
structure PendingFault where
  kind : Kind
  verb : Verb
  fault : Fault
  deriving DecidableEq

namespace Verb

def name : Verb → String
  | get => "get"
  | list => "list"
  | create => "create"
  | update => "update"
  | delete => "delete"

def title : Verb → String
  | get => "Get"
  | list => "List"
  | create => "Create"
  | update => "Update"
  | delete => "Delete"

end Verb

def PendingFault.error (p : PendingFault) : Error :=
  match p.fault with
  | .conflict => .conflict p.kind.name "injected"
  | .failure => .store ("injected " ++ p.verb.title ++ " failure for " ++ p.kind.name)

abbrev Table (k : Kind) := SortedMap Key (Resource k)

structure Store where
  instances : Table .inst := ∅
  instTemplates : Table .instTemplate := ∅
  microservices : Table .microservice := ∅
  microserviceTemplates : Table .microserviceTemplate := ∅
  tenants : Table .tenant := ∅
  pairings : Table .pairing := ∅
  configMaps : Table .configMap := ∅
  deployments : Table .deployment := ∅
  services : Table .service := ∅
  ingresses : Table .ingress := ∅
  spaces : Table .space := ∅
  /-- Versions handed out so far. It stands for a count of 64 bits, to whose end no run comes. -/
  version : Nat := 0
  faults : List PendingFault := []
  deriving DecidableEq, Inhabited

namespace Store

def table (s : Store) : (k : Kind) → Table k
  | .inst => s.instances
  | .instTemplate => s.instTemplates
  | .microservice => s.microservices
  | .microserviceTemplate => s.microserviceTemplates
  | .tenant => s.tenants
  | .pairing => s.pairings
  | .configMap => s.configMaps
  | .deployment => s.deployments
  | .service => s.services
  | .ingress => s.ingresses
  | .space => s.spaces

def setTable (s : Store) : (k : Kind) → Table k → Store
  | .inst, t => { s with instances := t }
  | .instTemplate, t => { s with instTemplates := t }
  | .microservice, t => { s with microservices := t }
  | .microserviceTemplate, t => { s with microserviceTemplates := t }
  | .tenant, t => { s with tenants := t }
  | .pairing, t => { s with pairings := t }
  | .configMap, t => { s with configMaps := t }
  | .deployment, t => { s with deployments := t }
  | .service, t => { s with services := t }
  | .ingress, t => { s with ingresses := t }
  | .space, t => { s with spaces := t }

@[simp] theorem table_setTable_self (s : Store) (k : Kind) (t : Table k) :
    (s.setTable k t).table k = t := by cases k <;> rfl

theorem table_setTable_of_ne (s : Store) {k l : Kind} (h : l ≠ k) (t : Table k) :
    (s.setTable k t).table l = s.table l := by
  cases k <;> cases l <;> first | rfl | exact absurd rfl h

@[simp] theorem version_setTable (s : Store) (k : Kind) (t : Table k) :
    (s.setTable k t).version = s.version := by cases k <;> rfl

@[simp] theorem faults_setTable (s : Store) (k : Kind) (t : Table k) :
    (s.setTable k t).faults = s.faults := by cases k <;> rfl

def find? (s : Store) (k : Kind) (key : Key) : Option (Resource k) := (s.table k).find? key

/-- Objects of a kind in key order, from one namespace or from all. -/
def select (s : Store) (k : Kind) (ns : Option String) (labels : Labels) : List (Resource k) :=
  ((s.table k).entries.filter fun (key, r) =>
    (ns.isNone || key.ns == ns) && r.metadata.satisfies labels).map (·.2)

/-- Stores `r` under `key` with the next version, and gives the object as stored. -/
def write (s : Store) {k : Kind} (key : Key) (r : Resource k) : Resource k × Store :=
  let stored := r.withVersion (some (toString (s.version + 1)))
  (stored, { s.setTable k ((s.table k).insert key stored) with version := s.version + 1 })

def remove (s : Store) (k : Kind) (key : Key) : Store := s.setTable k ((s.table k).erase key)

/-- The first fault waiting for a call, and the store without it. -/
def takeFault (s : Store) (k : Kind) (v : Verb) : Option (PendingFault × Store) :=
  (s.faults.find? fun p => p.kind = k && p.verb = v).map fun p =>
    (p, { s with faults := s.faults.eraseP fun p => p.kind = k && p.verb = v })

def addFaults (s : Store) (new : List PendingFault) : Store := { s with faults := s.faults ++ new }

def put (s : Store) {k : Kind} (key : Key) (r : Resource k) : Store := (s.write key r).2

theorem find?_setTable_self (s : Store) (k : Kind) (t : Table k) (key : Key) :
    (s.setTable k t).find? k key = t.find? key := by
  simp [find?]

theorem find?_setTable_of_ne (s : Store) {k l : Kind} (h : l ≠ k) (t : Table k) (key : Key) :
    (s.setTable k t).find? l key = s.find? l key := by
  simp [find?, table_setTable_of_ne s h]

@[simp] theorem find?_put_self (s : Store) {k : Kind} (key : Key) (r : Resource k) :
    (s.put key r).find? k key = some (r.withVersion (some (toString (s.version + 1)))) := by
  show (s.setTable k _).find? k key = _
  rw [find?_setTable_self, SortedMap.find?_insert_self]

theorem find?_put_of_ne (s : Store) {k l : Kind} {key key' : Key} (h : ¬(l = k ∧ key' = key))
    (r : Resource k) : (s.put key r).find? l key' = s.find? l key' := by
  show (s.setTable k _).find? l key' = _
  by_cases hk : l = k
  · subst hk
    rw [find?_setTable_self, SortedMap.find?_insert_of_ne _ fun he => h ⟨rfl, he⟩]
    rfl
  · exact find?_setTable_of_ne s hk _ key'

@[simp] theorem faults_put (s : Store) {k : Kind} (key : Key) (r : Resource k) :
    (s.put key r).faults = s.faults :=
  faults_setTable ..

@[simp] theorem find?_remove_self (s : Store) (k : Kind) (key : Key) :
    (s.remove k key).find? k key = none := by
  rw [remove, find?_setTable_self, SortedMap.find?_erase_self]

theorem find?_remove_of_ne (s : Store) {k l : Kind} {key key' : Key} (h : ¬(l = k ∧ key' = key)) :
    (s.remove k key).find? l key' = s.find? l key' := by
  by_cases hk : l = k
  · subst hk
    rw [remove, find?_setTable_self, SortedMap.find?_erase_of_ne _ fun he => h ⟨rfl, he⟩]
    rfl
  · exact find?_setTable_of_ne s hk _ key'

@[simp] theorem faults_remove (s : Store) (k : Kind) (key : Key) :
    (s.remove k key).faults = s.faults :=
  faults_setTable ..

@[simp] theorem setTable_table (s : Store) (k : Kind) : s.setTable k (s.table k) = s := by
  cases k <;> rfl

theorem remove_of_find?_eq_none {s : Store} {k : Kind} {key : Key} (h : s.find? k key = none) :
    s.remove k key = s := by
  rw [remove, SortedMap.erase_of_find?_eq_none h, setTable_table]

def picks {k : Kind} (ns : Option String) (labels : Labels) (key : Key) (r : Resource k) : Bool :=
  (ns.isNone || key.ns == ns) && r.metadata.satisfies labels

theorem mem_select {s : Store} {k : Kind} {ns : Option String} {labels : Labels} {r : Resource k} :
    r ∈ s.select k ns labels ↔ ∃ key, s.find? k key = some r ∧ picks ns labels key r := by
  simp only [select, List.mem_map, List.mem_filter, find?, SortedMap.find?_eq_some_iff]
  constructor
  · rintro ⟨⟨key, r⟩, ⟨hm, hp⟩, rfl⟩
    exact ⟨key, hm, hp⟩
  · rintro ⟨key, hm, hp⟩
    exact ⟨(key, r), ⟨hm, hp⟩, rfl⟩

theorem mem_select_of_find? {s : Store} {k : Kind} {ns : String} {labels : Labels} {key : Key}
    {r : Resource k} (hf : s.find? k key = some r) (hns : key.ns = some ns)
    (hl : r.metadata.satisfies labels) : r ∈ s.select k (some ns) labels :=
  mem_select.2 ⟨key, hf, by simp [picks, hns, hl]⟩

theorem select_congr {s s' : Store} {k : Kind} {ns : Option String} {labels : Labels}
    (h : ∀ key r, picks ns labels key r → (s.find? k key = some r ↔ s'.find? k key = some r)) :
    s.select k ns labels = s'.select k ns labels := by
  have ht : (s.table k).filter (picks ns labels) = (s'.table k).filter (picks ns labels) := by
    refine SortedMap.ext_find? fun key => ?_
    ext r
    simp only [SortedMap.find?_filter, Option.filter_eq_some_iff]
    constructor
    · rintro ⟨hr, hp⟩
      exact ⟨(h key r hp).1 hr, hp⟩
    · rintro ⟨hr, hp⟩
      exact ⟨(h key r hp).2 hr, hp⟩
  exact congrArg SortedMap.values ht

end Store
end TenantOperator
