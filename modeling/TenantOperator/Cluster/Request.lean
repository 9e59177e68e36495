import TenantOperator.Store.Call
import TenantOperator.Json.Reader
import TenantOperator.Cluster.Address

/-! Requests to the cluster's API, and the replies to them. -/
namespace TenantOperator
namespace Cluster

inductive Method where
  | get | post | put | delete
  deriving DecidableEq

def Method.name : Method → String
  | get => "GET"
  | post => "POST"
  | put => "PUT"
  | delete => "DELETE"

/-- What a request is for: the objects of a kind, in a namespace where one is given, or one of
them by name. -/
structure Target where
  kind : Kind
  ns : Option String
  name : Option String := none
  deriving DecidableEq

/-- Cluster-wide kinds have no namespace in their paths. -/
def Target.collection (t : Target) : String :=
  let space := match t.kind.isNamespaced, t.ns with
    | true, some ns => "namespaces/" ++ ns ++ "/"
    | _, _ => ""
  let root := if t.kind.group = "" then "/api/" else "/apis/"
  root ++ t.kind.apiVersion ++ "/" ++ space ++ t.kind.plural

def Target.text (t : Target) : String :=
  match t.name with
  | some name => t.collection ++ "/" ++ name
  | none => t.collection

structure Request where
  method : Method
  target : Target
  parameters : List (String × String) := []
  body : Option Json := none
  deriving DecidableEq

structure Wire where
  method : Method
  path : String
  /-- In name order. -/
  query : List (String × String)
  body : Option Json

/-- Whether the path ends with the mark of a query; that of a single object does not. -/
def Request.marksQuery (q : Request) : Bool := !(q.method = .get && q.target.name.isSome)

/-- A request goes out only if its target can be written as a path. What follows a question mark in
a name is read as a part of the query, and what follows a hash is not sent at all. -/
def Request.wire? (q : Request) : Option Wire :=
  let mark := if q.marksQuery then "?" else ""
  let target := Address.Target.ofText (q.target.text ++ mark)
  let parameters := if target.isCut then [] else q.parameters
  if target.isValid then
    some
      { method := q.method, path := String.ofList target.path, body := q.body
        query := Query.ordered
          (Query.pairs (String.ofList (target.query.getD [])) ++ parameters) }
  else none

/-- The body of a reply is a draft of a document, or else of no use. -/
structure Reply where
  status : Nat
  body : Option Json.Draft

def Reply.ofText (status : Nat) (text : String) : Reply := ⟨status, Json.Draft.ofText? text⟩

def Reply.ofJson (status : Nat) (j : Json) : Reply := ⟨status, some (.ofJson j)⟩

structure Refusal where
  status : String
  message : String
  reason : String
  code : Nat
  deriving DecidableEq

open Json (Record Decoder) in
def Refusal.decode : Decoder Refusal :=
  Record.ofObjectOrArray "ErrorResponse" ((fun status message reason code =>
      { status, message, reason, code := code.toNat })
    <$> .required "status" Decoder.string
    <*> .defaulted "message" Decoder.string ""
    <*> .defaulted "reason" Decoder.string ""
    <*> .required "code" (Decoder.integer 0 65535 "u16"))

/-- The code of a refusal is the one its body gives, else that of the reply. -/
def Reply.refusal? (r : Reply) : Option Nat :=
  if r.status < 400 || 600 ≤ r.status then none
  else
    match r.body.bind Refusal.decode.ofDraft? with
    | some refusal => some refusal.code
    | none => some r.status

end Cluster
end TenantOperator
