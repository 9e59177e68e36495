import TenantOperator.Cluster.Client
import TenantOperator.Tenancy.Reconcile

/-! Watching the entities of one kind. A watcher lists them and then follows the changes, and every
object it sees makes one request. It lists again only where it can no longer tell what it missed. -/
namespace TenantOperator
namespace Cluster
open Json (Record Decoder)

inductive Notice (k : Kind) where
  | applied (r : Resource k)
  | deleted (r : Resource k)
  /-- How far the watch has come; nothing has changed. -/
  | bookmark
  | failed (e : Refusal)
  deriving DecidableEq

namespace Notice

def decodeAs (k : Kind) (type : String) (j : Json) : Except Json.Fault (Notice k) :=
  match type with
  | "ADDED" | "MODIFIED" => (Resource.decode k j).map .applied
  | "DELETED" => (Resource.decode k j).map .deleted
  | "BOOKMARK" => .ok .bookmark
  | "ERROR" => (Refusal.decode j).map .failed
  | t => .error (.invalidValue (Json.found (.str t)) "variant")

def decode (k : Kind) (j : Json) : Except Json.Fault (Notice k) := do
  let (type, object) ← Record.ofObjectOrArray "WatchEvent" ((·, ·)
    <$> .required "type" Decoder.string
    <*> .required "object" Decoder.any) j
  decodeAs k type object

end Notice

inductive Progress where
  | seen (key : Key)
  | nothing
  /-- Changes may have been missed. -/
  | lost
  deriving DecidableEq

def versioned (m : Metadata) : Bool := !(m.resourceVersion.getD "").isEmpty

/-- A change that does not say its version cannot be followed any further. A line that cannot be
read is passed over. -/
def progress (k : Kind) (line : Json) : Progress :=
  match Notice.decode k line with
  | .ok (.applied r) | .ok (.deleted r) => if versioned r.metadata then .seen r.key else .lost
  | .ok .bookmark => .nothing
  | .ok (.failed e) => if e.code = 410 then .lost else .nothing
  | .error _ => .nothing

/-- Objects seen on one watch, and whether it has to be given up for a new list. -/
def followLines (k : Kind) : List Json → List Key × Bool
  | [] => ([], false)
  | line :: rest =>
    match progress k line with
    | .seen key =>
      let (keys, lost) := followLines k rest
      (key :: keys, lost)
    | .nothing => followLines k rest
    | .lost => ([], true)

/-- The pages of a list. A page with a next one counts even if a later page fails; then the list
starts over. Replies that are left come after those the list took. -/
def listing (k : Kind) : List Reply → List Key × List Reply
  | [] => ([], [])
  | r :: rest =>
    match read (listDecoder k).ofDraft? (refusedAs []) r with
    | .error _ => listing k rest
    | .ok (metadata, objects) =>
      let keys := objects.map Resource.key
      if !(metadata.nextPage.getD "").isEmpty then
        let (later, rest) := listing k rest
        (keys ++ later, rest)
      else if !(metadata.resourceVersion.getD "").isEmpty then (keys, rest)
      else listing k rest

/-- Objects seen over the watches of a kind. A watch that ends is begun anew, without a new list
unless it was lost. -/
def following (k : Kind) : List (List Json) → List Reply → List Key
  | [], _ => []
  | lines :: watches, lists =>
    match followLines k lines with
    | (keys, false) => keys ++ following k watches lists
    | (keys, true) =>
      let (listed, lists) := listing k lists
      keys ++ listed ++ following k watches lists

/-- What a server has to say about one kind: replies to list requests, and the lines it sends on
each watch, whatever the status under which it sends them. Beyond these its lists are empty and
its watches silent. -/
structure Feed where
  lists : List Reply := []
  watches : List (List Json) := []

/-- Requests a watcher makes, in order, until it waits for a silent server. -/
def watch (e : EntityKind) (f : Feed) : List ReconcileRequest :=
  let (listed, lists) := listing e.kind f.lists
  (listed ++ following e.kind f.watches lists).map fun key => ⟨e, key⟩

end Cluster
end TenantOperator
