import TenantOperator.Store.Call

/-! Programs over a store: trees of calls in which every answer, a failure included, chooses how to
go on. A tree can be run on a store at once, or taken apart call by call when several of them
share one store. -/
namespace TenantOperator

inductive Program (α : Type) where
  | done (result : Except Error α)
  | call (c : Call) (next : Except Error c.Answer → Program α)

namespace Program
variable {α β : Type}

def bind (p : Program α) (f : α → Program β) : Program β :=
  match p with
  | .done (.ok a) => f a
  | .done (.error e) => .done (.error e)
  | .call c next => .call c fun r => (next r).bind f

instance : Monad Program where
  pure a := .done (.ok a)
  bind := bind

def fail (e : Error) : Program α := .done (.error e)

def ofExcept (r : Except Error α) : Program α := .done r

/-- The result of `p` as a value, so that its failure can be looked at. -/
def attempt : Program α → Program (Except Error α)
  | .done r => .done (.ok r)
  | .call c next => .call c fun r => (next r).attempt

/-- A single call; its failure is the program's. -/
def perform (c : Call) : Program c.Answer := .call c .done

def get (k : Kind) (key : Key) : Program (Option (Resource k)) := perform (.get k key)

def list (k : Kind) (ns : Option String) (labels : Labels) : Program (List (Resource k)) :=
  perform (.list k ns labels)

def create {k : Kind} (r : Resource k) : Program (Resource k) := perform (.create k r)

def update {k : Kind} (r : Resource k) : Program (Resource k) := perform (.update k r)

def delete (k : Kind) (key : Key) : Program Bool := perform (.delete k key)

def run : Program α → Store → Except Error α × Store
  | .done r, s => (r, s)
  | .call c next, s =>
    let (answer, s) := s.perform c
    (next answer).run s

@[simp] theorem run_pure (a : α) (s : Store) : (pure a : Program α).run s = (.ok a, s) := rfl

@[simp] theorem run_fail (e : Error) (s : Store) : (fail e : Program α).run s = (.error e, s) := rfl

theorem run_bind (p : Program α) (f : α → Program β) (s : Store) :
    (p >>= f).run s =
      match p.run s with
      | (.ok a, s) => (f a).run s
      | (.error e, s) => (.error e, s) := by
  induction p generalizing s with
  | done r => cases r <;> rfl
  | call c next ih => exact ih _ _

theorem run_attempt (p : Program α) (s : Store) :
    p.attempt.run s = (.ok (p.run s).1, (p.run s).2) := by
  induction p generalizing s with
  | done r => rfl
  | call c next ih => exact ih _ _

theorem bind_assoc {γ : Type} (p : Program α) (f : α → Program β) (g : β → Program γ) :
    (p >>= f) >>= g = p >>= fun a => f a >>= g := by
  induction p with
  | done r => cases r <;> rfl
  | call c next ih => exact congrArg (Program.call c) (funext ih)

theorem map_id' (p : Program α) : id <$> p = p := by
  induction p with
  | done r => cases r <;> rfl
  | call c next ih => exact congrArg (Program.call c) (funext ih)

instance : LawfulMonad Program :=
  LawfulMonad.mk' Program map_id' (fun _ _ => rfl) bind_assoc

end Program

/-- Creates `r` unless its name is taken; whether this call created it. -/
def ensureCreated {k : Kind} (r : Resource k) : Program Bool := do
  match ← (Program.create r).attempt with
  | .ok _ => return true
  | .error e => if e.isAlreadyExists then return false else .fail e

def getRequired (k : Kind) (key : Key) : Program (Resource k) := do
  match ← Program.get k key with
  | some r => return r
  | none => .fail (.notFound k.name key.text)

end TenantOperator
