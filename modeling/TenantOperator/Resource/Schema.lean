import TenantOperator.Calendar.Instant
import TenantOperator.Json.Decode
import TenantOperator.Text.Base64
import TenantOperator.Text.Utf8

/-! Fields of built-in objects that the operator has no use for. They are read by their types and
kept, so that an object that is read and written again keeps all that its kind can hold. -/
namespace TenantOperator
open Json (Record Decoder)

/-- Fields that are kept as they were read. -/
abbrev Details := List (String × Json)

def Details.fields (d : Details) : List (String × Option Json) := d.map fun (k, v) => (k, some v)

/-- A type of values: how they are read, and the one that stands for a missing one. -/
structure Schema where
  decoder : Decoder Json
  empty : Json

/-- A field of a record. A required one is never absent from what is written. -/
structure Part where
  name : String
  schema : Schema
  isRequired : Bool

namespace Part

def record (p : Part) : Record (Option Json) :=
  (fun v => if p.isRequired then some (v.getD p.schema.empty) else v)
    <$> .optional p.name p.schema.decoder

def empty? (p : Part) : Option (String × Json) :=
  if p.isRequired then some (p.name, p.schema.empty) else none

end Part

/-- Fields of one type that may be absent. -/
def may (s : Schema) (names : List String) : List Part := names.map fun name => ⟨name, s, false⟩

/-- Fields of one type that have a value where they are not given. -/
def must (s : Schema) (names : List String) : List Part := names.map fun name => ⟨name, s, true⟩

def Details.record : List Part → Record Details
  | [] => pure []
  | p :: ps => (fun v rest => (v.map (p.name, ·)).toList ++ rest) <$> p.record <*> record ps

inductive PortRef where
  | number (n : Int)
  | named (s : String)
  deriving DecidableEq

def PortRef.encode : PortRef → Json
  | .number n => .int n
  | .named s => .str s

def PortRef.decode : Decoder PortRef where
  read
  | .str s => .ok (.named s)
  | .int n =>
    (Decoder.integer (-Int.pow 2 31) (Int.pow 2 31 - 1) "a 32-bit integer" (.int n)).map .number
  | j => .error (.invalidType j.found "IntOrString")

namespace Schema

def of {α : Type} (encode : α → Json) (d : Decoder α) (a : α) : Schema where
  decoder := encode <$> d
  empty := encode a

def any : Schema := ⟨Decoder.any, .null⟩
def text : Schema := of .str Decoder.string ""
def flag : Schema := of .bool Decoder.boolean false
def int32 : Schema := of .int Decoder.int32 0
def int64 : Schema := of .int Decoder.int64 0
def port : Schema := of PortRef.encode PortRef.decode (.number 0)

def list (s : Schema) : Schema := of .arr (Decoder.list s.decoder) []
def map (s : Schema) : Schema := of (fun m => .obj m.entries) (Decoder.map s.decoder) ∅

def texts : Schema := list text

def textMap : Schema := map text

def time : Schema where
  decoder.read
  | .str s =>
    match Instant.ofText s with
    | .ok t => .ok (.str t.text)
    | .error f => .error (.unreadable f.message)
  | j => .error (.invalidType j.found "an RFC 3339 formatted date and time string")
  empty := .str (Instant.text ⟨0, 0⟩)

/-- Bytes as their one text; `null` is no bytes. -/
def bytes : Schema where
  decoder.read
  | .null => .ok (.str "")
  | .str s =>
    match Text.Base64.fault? (Text.bytes s) with
    | none => .ok (.str s)
    | some f => .error (.unreadable f.message)
  | j => .error (.invalidType j.found "a base64-encoded string")
  empty := .str ""

def record (name : String) (parts : List Part) : Schema where
  decoder := Json.obj <$> (Details.record parts).ofObject name
  empty := .obj (parts.filterMap Part.empty?)

end Schema

def Part.object (field name : String) (parts : List Part) : Part :=
  ⟨field, .record name parts, false⟩

end TenantOperator
