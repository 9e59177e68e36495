import TenantOperator.Store.Program

/-! Read, change, write: the way every shared object is written. The change is computed from the
object just read and sent with its version; when another writer was faster, the object is read
again and the change computed anew. -/
namespace TenantOperator

inductive WriteOutcome where
  | created | updated | unchanged | deleted
  deriving DecidableEq

namespace WriteOutcome

def name : WriteOutcome → String
  | created => "Created"
  | updated => "Updated"
  | unchanged => "Unchanged"
  | deleted => "Deleted"

end WriteOutcome

/-- How to change an object, or its absence, with a state that the decisions share; `none` leaves
things as they are. -/
abbrev Change (σ : Type) (k : Kind) :=
  σ → Option (Resource k) → Except Error (Option (Resource k)) × σ

namespace Upsert
variable {σ : Type} {k : Kind}

/-- Writes over nothing, or over `current` at its version. -/
def write (current : Option (Resource k)) (r : Resource k) : Program WriteOutcome :=
  match current with
  | none => Program.create r >>= fun _ => pure .created
  | some current =>
    Program.update (r.withVersion current.metadata.resourceVersion) >>= fun _ => pure .updated

/-- Whether a failed write calls for another round. -/
def lost (current : Option (Resource k)) (e : Error) : Bool :=
  if current.isSome then e.isConflict else e.isAlreadyExists

/-- At most `n` rounds; the change's last state comes out with every result. -/
def rounds (key : Key) (change : Change σ k) : Nat → σ → Program (Except Error WriteOutcome × σ)
  | 0, st => return (.error (.conflict k.name key.text), st)
  | n + 1, st => do
    match ← (Program.get k key).attempt with
    | .error e => return (.error e, st)
    | .ok current =>
      match change st current with
      | (.error e, st) => return (.error e, st)
      | (.ok none, st) => return (.ok .unchanged, st)
      | (.ok (some r), st) =>
        match ← (write current r).attempt with
        | .ok outcome => return (.ok outcome, st)
        | .error e => if lost current e then rounds key change n st else return (.error e, st)

end Upsert

/-- Read, change, write, at least once and at most `attempts` times. -/
def upsertWith {σ : Type} {k : Kind} (key : Key) (attempts : Nat) (change : Change σ k) (st : σ) :
    Program (Except Error WriteOutcome × σ) :=
  Upsert.rounds key change (max attempts 1) st

def upsert {k : Kind} (key : Key) (attempts : Nat)
    (change : Option (Resource k) → Option (Resource k)) : Program WriteOutcome := do
  let (result, _) ← upsertWith key attempts (fun (_ : Unit) r => (.ok (change r), ())) ()
  .ofExcept result

end TenantOperator
