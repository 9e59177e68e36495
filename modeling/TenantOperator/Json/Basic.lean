import TenantOperator.SortedMap
import TenantOperator.Decimal.Layout

/-! JSON documents. Integers and doubles are different values; an object keeps its fields in a
list, in key order wherever a document was read from text. -/
namespace TenantOperator

inductive Json where
  | null
  | bool (b : Bool)
  | int (n : Int)
  | double (x : Binary64)
  | str (s : String)
  | arr (items : List Json)
  | obj (fields : List (String × Json))

namespace Json

instance : Inhabited Json := ⟨null⟩

/-- Doubles keep a point or an exponent, so that they never read back as integers. -/
def doubles : Decimal.Layout := ⟨-5, 15, true⟩

mutual
def decEq : (a b : Json) → Decidable (a = b)
  | .null, b => by cases b <;> first | exact isTrue rfl | exact isFalse Json.noConfusion
  | .bool x, b => by
    cases b
    case bool y =>
      exact if h : x = y then isTrue (h ▸ rfl) else isFalse fun e => h (by cases e; rfl)
    all_goals exact isFalse Json.noConfusion
  | .int x, b => by
    cases b
    case int y => exact if h : x = y then isTrue (h ▸ rfl) else isFalse fun e => h (by cases e; rfl)
    all_goals exact isFalse Json.noConfusion
  | .double x, b => by
    cases b
    case double y =>
      exact if h : x = y then isTrue (h ▸ rfl) else isFalse fun e => h (by cases e; rfl)
    all_goals exact isFalse Json.noConfusion
  | .str x, b => by
    cases b
    case str y => exact if h : x = y then isTrue (h ▸ rfl) else isFalse fun e => h (by cases e; rfl)
    all_goals exact isFalse Json.noConfusion
  | .arr x, b => by
    cases b
    case arr y =>
      exact match decEqList x y with
        | isTrue h => isTrue (h ▸ rfl)
        | isFalse h => isFalse fun e => h (by cases e; rfl)
    all_goals exact isFalse Json.noConfusion
  | .obj x, b => by
    cases b
    case obj y =>
      exact match decEqFields x y with
        | isTrue h => isTrue (h ▸ rfl)
        | isFalse h => isFalse fun e => h (by cases e; rfl)
    all_goals exact isFalse Json.noConfusion

def decEqList : (a b : List Json) → Decidable (a = b)
  | [], [] => isTrue rfl
  | [], _ :: _ => isFalse nofun
  | _ :: _, [] => isFalse nofun
  | a :: as, b :: bs =>
    match decEq a b, decEqList as bs with
    | isTrue h, isTrue h' => isTrue (h ▸ h' ▸ rfl)
    | isFalse h, _ => isFalse fun e => h (by cases e; rfl)
    | _, isFalse h => isFalse fun e => h (by cases e; rfl)

def decEqFields : (a b : List (String × Json)) → Decidable (a = b)
  | [], [] => isTrue rfl
  | [], _ :: _ => isFalse nofun
  | _ :: _, [] => isFalse nofun
  | (k, a) :: as, (k', b) :: bs =>
    if hk : k = k' then
      match decEq a b, decEqFields as bs with
      | isTrue h, isTrue h' => isTrue (hk ▸ h ▸ h' ▸ rfl)
      | isFalse h, _ => isFalse fun e => h (by cases e; rfl)
      | _, isFalse h => isFalse fun e => h (by cases e; rfl)
    else isFalse fun e => hk (by cases e; rfl)
end

instance : DecidableEq Json := decEq

def get? (j : Json) (name : String) : Option Json :=
  match j with
  | .obj fields => fields.lookup name
  | _ => none

def ofFields (fields : List (String × Option Json)) : Json :=
  .obj (fields.filterMap fun (k, v) => v.map (k, ·))

def ofTexts (m : SortedMap String String) : Json :=
  .obj (m.entries.map fun (k, v) => (k, .str v))

mutual
/-- The document with the fields of every object in key order. -/
def ordered : Json → Json
  | .arr items => .arr (orderedItems items)
  | .obj fields => .obj (SortedMap.ofList (orderedFields fields)).entries
  | j => j

def orderedItems : List Json → List Json
  | [] => []
  | j :: js => j.ordered :: orderedItems js

def orderedFields : List (String × Json) → List (String × Json)
  | [] => []
  | (k, j) :: fs => (k, j.ordered) :: orderedFields fs
end

end Json
end TenantOperator
