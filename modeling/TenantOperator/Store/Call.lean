import TenantOperator.Store.Basic

/-! The five store calls, their answers, and what the store does on each. A call that fails leaves
every object and the version counter as they were. -/
namespace TenantOperator

inductive Call where
  | get (k : Kind) (key : Key)
  /-- Objects of a namespace, or of all, that carry every given label. -/
  | list (k : Kind) (ns : Option String) (labels : Labels)
  | create (k : Kind) (r : Resource k)
  /-- Replaces an object; a version it carries must still be the stored one. -/
  | update (k : Kind) (r : Resource k)
  | delete (k : Kind) (key : Key)

namespace Call

/-- What a call that succeeds gives; a delete says whether there was something to delete. -/
@[reducible] def Answer : Call → Type
  | get k _ => Option (Resource k)
  | list k _ _ => List (Resource k)
  | create k _ => Resource k
  | update k _ => Resource k
  | delete _ _ => Bool

def kind : Call → Kind
  | get k _ | list k _ _ | create k _ | update k _ | delete k _ => k

def verb : Call → Verb
  | get .. => .get
  | list .. => .list
  | create .. => .create
  | update .. => .update
  | delete .. => .delete

/-- The object a call is about; a list is about none in particular. -/
def key? : Call → Option Key
  | get _ key | delete _ key => some key
  | create _ r | update _ r => some r.key
  | list .. => none

def summary : Call → String
  | list k ns labels =>
    "list " ++ k.name ++ " " ++ ns.getD "*" ++
      " [" ++ labels.selectorText ++ "]"
  | get k key => "get " ++ k.name ++ " " ++ key.text
  | create k r => "create " ++ k.name ++ " " ++ r.key.text
  | update k r => "update " ++ k.name ++ " " ++ r.key.text
  | delete k key => "delete " ++ k.name ++ " " ++ key.text

end Call

/-- An object without a name of its own cannot be written. -/
def Error.unnamed (k : Kind) : Error := .validation (k.name ++ " has no metadata.name")

namespace Store

def create (s : Store) {k : Kind} (r : Resource k) : Except Error (Resource k) × Store :=
  match r.metadata.name with
  | none => (.error (.unnamed k), s)
  | some name =>
    let key : Key := ⟨name, r.metadata.ns⟩
    if (s.find? k key).isSome then (.error (.alreadyExists k.name name), s)
    else
      let (stored, s) := s.write key r
      (.ok stored, s)

def update (s : Store) {k : Kind} (r : Resource k) : Except Error (Resource k) × Store :=
  match s.find? k r.key with
  | none => (.error (.notFound k.name r.key.text), s)
  | some current =>
    if r.metadata.resourceVersion.isSome
        && current.metadata.resourceVersion != r.metadata.resourceVersion then
      (.error (.conflict k.name r.key.name), s)
    else
      let (stored, s) := s.write r.key r
      (.ok stored, s)

/-- The answer to a call that no fault strikes. -/
def answer (s : Store) : (c : Call) → Except Error c.Answer × Store
  | .get k key => (.ok (s.find? k key), s)
  | .list k ns labels => (.ok (s.select k ns labels), s)
  | .create _ r => s.create r
  | .update _ r => s.update r
  | .delete k key => (.ok (s.find? k key).isSome, s.remove k key)

def perform (s : Store) (c : Call) : Except Error c.Answer × Store :=
  match s.takeFault c.kind c.verb with
  | some (p, s) => (.error p.error, s)
  | none => s.answer c

end Store
end TenantOperator
