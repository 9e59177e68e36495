/-! Why a store call or a reconcile fails, and whether another attempt may help. -/
namespace TenantOperator

inductive Error where
  /-- The cluster's API failed, with the code of its status where it gave one. -/
  | api (code : Option Nat)
  | alreadyExists (kind name : String)
  | conflict (kind name : String)
  | notFound (kind name : String)
  /-- The declared hierarchy is broken. -/
  | invariant (reason : String)
  | validation (reason : String)
  | serialization (reason : String)
  | store (reason : String)
  | cancelled
  deriving DecidableEq

namespace Error

/-- The text of an error; API errors have none of their own. -/
def message? : Error → Option String
  | api _ => none
  | alreadyExists kind name => some (kind ++ " " ++ name ++ " already exists")
  | conflict kind name => some ("update conflict on " ++ kind ++ " " ++ name)
  | notFound kind name => some (kind ++ " " ++ name ++ " not found")
  | invariant reason => some ("invariant violation: " ++ reason)
  | validation reason => some ("validation error: " ++ reason)
  | serialization reason => some ("serialization error: " ++ reason)
  | store reason => some ("store error: " ++ reason)
  | cancelled => some "reconcile cancelled"

def isAlreadyExists : Error → Bool
  | alreadyExists .. => true
  | _ => false

def isConflict : Error → Bool
  | conflict .. => true
  | _ => false

/-- Broken invariants and invalid objects need a change of the declared objects, and a cancelled
run means that the process stops; everything else is tried again. -/
def isRetryable : Error → Bool
  | invariant _ | validation _ | cancelled => false
  | _ => true

end Error
end TenantOperator
