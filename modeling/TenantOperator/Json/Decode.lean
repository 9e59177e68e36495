import TenantOperator.Json.Draft
import TenantOperator.Text.Escaped

/-! Decoding documents into typed values. A record looks at the fields of an object in the order
the object has them and reports the first bad value; only then does it report, in declaration
order, what is missing. Unknown fields are skipped. -/
namespace TenantOperator
namespace Json

inductive Fault where
  | invalidType (found expected : String)
  | invalidValue (found expected : String)
  | invalidLength (length : Nat) (expected : String)
  | missingField (name : String)
  /-- A text that is not written as its type wants it. -/
  | unreadable (reason : String)
  deriving DecidableEq

def Fault.message : Fault → String
  | .invalidType found expected => "invalid type: " ++ found ++ ", expected " ++ expected
  | .invalidValue found expected => "invalid value: " ++ found ++ ", expected " ++ expected
  | .invalidLength n expected => "invalid length " ++ toString n ++ ", expected " ++ expected
  | .missingField name => "missing field \x60" ++ name ++ "\x60"
  | .unreadable reason => reason

def found : Json → String
  | .null => "null"
  | .bool b => "boolean \x60" ++ (if b then "true" else "false") ++ "\x60"
  | .int n => "integer \x60" ++ toString n ++ "\x60"
  | .double x => "floating point \x60" ++ doubles.text x ++ "\x60"
  | .str s => "string " ++ Text.quote s
  | .arr _ => "sequence"
  | .obj _ => "map"

/-- A reader of values, and what of a draft it looks at. -/
structure Decoder (α : Type) where
  shape : Shape := .whole
  read : Json → Except Fault α

namespace Decoder
variable {α β : Type}

instance : CoeFun (Decoder α) fun _ => Json → Except Fault α := ⟨Decoder.read⟩

instance : Functor Decoder where
  map f d := { d with read := fun j => (d j).map f }

def accepts (d : Decoder α) (j : Json) : Bool := (d j).toBool

/-- Reads a draft, whose flaws count only where `d` looks. -/
def ofDraft? (d : Decoder α) (t : Draft) : Option α :=
  (t.conform d.shape).bind fun j => (d j).toOption

def any : Decoder Json where
  read := .ok

def string : Decoder String where
  read
  | .str s => .ok s
  | j => .error (.invalidType j.found "a string")

def boolean : Decoder Bool where
  read
  | .bool b => .ok b
  | j => .error (.invalidType j.found "a boolean")

def integer (low high : Int) (expected : String) : Decoder Int where
  read
  | .int n => if low ≤ n ∧ n ≤ high then .ok n else .error (.invalidValue (found (.int n)) expected)
  | j => .error (.invalidType j.found expected)

def int32 : Decoder Int := integer (-Int.pow 2 31) (Int.pow 2 31 - 1) "i32"

def int64 : Decoder Int := integer (-Int.pow 2 63) (Int.pow 2 63 - 1) "i64"

def optional (d : Decoder α) : Decoder (Option α) where
  shape := d.shape
  read
  | .null => .ok none
  | j => (d j).map some

def list (d : Decoder α) : Decoder (List α) where
  shape := .items d.shape
  read
  | .arr items => items.mapM d.read
  | j => .error (.invalidType j.found "a sequence")

def map (d : Decoder α) : Decoder (SortedMap String α) where
  shape := .entries d.shape d.accepts
  read
  | .obj fields => do
    let entries ← fields.mapM fun field => (d field.2).map (field.1, ·)
    return SortedMap.ofList entries
  | j => .error (.invalidType j.found "a map")

def texts : Decoder (SortedMap String String) := map string

end Decoder

/-- A declared field: its name, the check of a given value, and whether it may be left out. -/
structure Field where
  name : String
  shape : Shape
  check : Json → Except Fault Unit
  optional : Bool

/-- Declared fields in order, and the value built from them once all given ones are good. -/
structure Record (α : Type) where
  fields : List Field
  build : (String → Option Json) → Except Fault α

namespace Record
variable {α β : Type}

instance : Applicative Record where
  pure a := ⟨[], fun _ => .ok a⟩
  seq f x := ⟨f.fields ++ (x ()).fields, fun get => do
    let g ← f.build get
    return g (← (x ()).build get)⟩

def required (name : String) (d : Decoder α) : Record α where
  fields := [⟨name, d.shape, fun j => (d j).map fun _ => (), false⟩]
  build get := match get name with
    | some j => d j
    | none => .error (.missingField name)

def defaulted (name : String) (d : Decoder α) (a : α) : Record α where
  fields := [⟨name, d.shape, fun j => (d j).map fun _ => (), true⟩]
  build get := match get name with
    | some j => d j
    | none => .ok a

/-- Absent and `null` mean the same. -/
def optional (name : String) (d : Decoder α) : Record (Option α) :=
  defaulted name (Decoder.optional d) none

/-- Absent and `null` mean the default. -/
def orDefault (name : String) (d : Decoder α) (a : α) : Record α :=
  (fun v => v.getD a) <$> optional name d

def check (r : Record α) (fields : List (String × Json)) : Except Fault Unit :=
  fields.forM fun (k, v) =>
    match r.fields.find? (·.name = k) with
    | some f => f.check v
    | none => .ok ()

def shape (r : Record α) (once readsRest : Bool) : Shape :=
  .record once readsRest (r.fields.map fun f => (f.name, f.shape, fun j => (f.check j).toBool))

def readObject (expected : String) (r : Record α) : Json → Except Fault α
  | .obj fields => do
    r.check fields
    r.build fun name => fields.lookup name
  | j => .error (.invalidType j.found expected)

/-- Reads an object; `expected` names the record in faults. -/
def ofObject (expected : String) (r : Record α) : Decoder α :=
  ⟨r.shape false false, r.readObject expected⟩

def byPosition (expected : String) (fields : List Field) (i : Nat) (given : List Json) :
    Except Fault (List (String × Json)) :=
  match fields, given with
  | [], [] => .ok []
  | [], rest => .error (.invalidLength (i + rest.length) "fewer elements in array")
  | f :: fs, [] =>
    if f.optional then byPosition expected fs (i + 1) [] else .error (.invalidLength i expected)
  | f :: fs, j :: js => do
    f.check j
    let rest ← byPosition expected fs (i + 1) js
    return (f.name, j) :: rest

def readArray (name : String) (r : Record α) (items : List Json) : Except Fault α := do
  let n := r.fields.length
  let elements := if n = 1 then " with 1 element" else " with " ++ toString n ++ " elements"
  let fields ← byPosition ("struct " ++ name ++ elements) r.fields 0 items
  r.build fun name => fields.lookup name

/-- Reads an object that gives no field twice, or an array that gives the fields in declaration
order. -/
def ofObjectOrArray (name : String) (r : Record α) : Decoder α where
  shape := r.shape true false
  read
  | .arr items => r.readArray name items
  | j => r.readObject ("struct " ++ name) j

end Record
end Json
end TenantOperator
