import TenantOperator.Json.Basic

/-! Documents as they are written: objects keep every field that was given, in the order given, and
a value that has the form of one but cannot be taken for one is flawed. That is a number beyond
all doubles, a text with half a surrogate pair, an object with such a key, or a value nested too
deep. -/
namespace TenantOperator
namespace Json

inductive Draft where
  | null
  | bool (b : Bool)
  | int (n : Int)
  | double (x : Binary64)
  | str (s : String)
  | arr (items : List Draft)
  | obj (fields : List (String × Draft))
  | flawed

inductive Shape where
  /-- All of it. -/
  | whole
  | items (s : Shape)
  /-- Every field of an object, a later one in place of an earlier one that is good. -/
  | entries (s : Shape) (isGood : Json → Bool)
  /-- The named fields of an object. With `once` a field must not be given again, and with
  `readsRest` the other fields must not be flawed, either. -/
  | record (once readsRest : Bool) (fields : List (String × Shape × (Json → Bool)))

namespace Draft

instance : Inhabited Draft := ⟨null⟩

mutual
def ofJson : Json → Draft
  | .null => .null
  | .bool b => .bool b
  | .int n => .int n
  | .double x => .double x
  | .str s => .str s
  | .arr items => .arr (ofItems items)
  | .obj fields => .obj (ofFields fields)

def ofItems : List Json → List Draft
  | [] => []
  | j :: js => ofJson j :: ofItems js

def ofFields : List (String × Json) → List (String × Draft)
  | [] => []
  | (k, j) :: fs => (k, ofJson j) :: ofFields fs
end

mutual
/-- The document of a draft without flaws. Objects come out in key order, the last field of a name
winning. -/
def toJson? : Draft → Option Json
  | .null => some .null
  | .bool b => some (.bool b)
  | .int n => some (.int n)
  | .double x => some (.double x)
  | .str s => some (.str s)
  | .arr items => (toItems? items).map .arr
  | .obj fields => (toFields? fields).map fun l => .obj (SortedMap.ofList l).entries
  | .flawed => none

def toItems? : List Draft → Option (List Json)
  | [] => some []
  | d :: ds => do return (← toJson? d) :: (← toItems? ds)

def toFields? : List (String × Draft) → Option (List (String × Json))
  | [] => some []
  | (k, d) :: fs => do return (k, ← toJson? d) :: (← toFields? fs)
end

structure Selection where
  find : String → Option (Shape × (Json → Bool))
  once : Bool := false
  readsRest : Bool := false

mutual
/-- The document of a draft as far as `s` looks at it; `none` where a flaw is in its way. -/
def conform (s : Shape) : Draft → Option Json
  | .null => some .null
  | .bool b => some (.bool b)
  | .int n => some (.int n)
  | .double x => some (.double x)
  | .str t => some (.str t)
  | .flawed => none
  | .arr items =>
    match s with
    | .items s => (conformItems s items).map .arr
    | .record _ _ fields => (conformEach (fields.map (·.2.1)) items).map .arr
    | _ => (toItems? items).map .arr
  | .obj fields =>
    match s with
    | .entries s isGood => (conformFields { find := fun _ => some (s, isGood) } fields).map .obj
    | .record once readsRest known =>
      (conformFields { find := fun k => known.lookup k, once, readsRest } fields).map .obj
    | _ => (toFields? fields).map fun l => .obj (SortedMap.ofList l).entries

def conformItems (s : Shape) : List Draft → Option (List Json)
  | [] => some []
  | d :: ds => do return (← conform s d) :: (← conformItems s ds)

def conformEach : List Shape → List Draft → Option (List Json)
  | _, [] => some []
  | [], d :: ds => do return (← conform .whole d) :: (← conformEach [] ds)
  | s :: ss, d :: ds => do return (← conform s d) :: (← conformEach ss ds)

def conformFields (sel : Selection) : List (String × Draft) → Option (List (String × Json))
  | [] => some []
  | (k, d) :: fs => do
    let later ← conformFields sel fs
    match sel.find k with
    | none => if sel.readsRest && (toJson? d).isNone then none else some later
    | some (s, isGood) =>
      let j ← conform s d
      if later.any (·.1 = k) then if !sel.once && isGood j then some later else none
      else some ((k, j) :: later)
end

end Draft
end Json
end TenantOperator
