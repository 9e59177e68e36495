import TenantOperator.Cluster.Request

/-! Store calls over the cluster's API. A call makes one request, or none if it cannot be sent, and
its answer follows the same rules as that of the store itself. -/
namespace TenantOperator
namespace Cluster
open Json (Record Decoder)

/-- A call that is settled already, or waits for the reply to its request. -/
inductive Exchange (c : Call) where
  | settled (e : Error)
  | send (q : Request) (next : Reply → Except Error c.Answer)

/-- The reply read by `interpret`, with the error that a refusal stands for. A reply that cannot be
read is an API error. -/
def read {α : Type} (interpret : Json.Draft → Option α) (refused : Nat → Except Error α)
    (r : Reply) : Except Error α :=
  match r.refusal? with
  | some code => refused code
  | none =>
    match r.body.bind interpret with
    | some a => .ok a
    | none => .error (.api none)

def refusedAs {α : Type} (special : List (Nat × Except Error α)) (code : Nat) : Except Error α :=
  (special.lookup code).getD (.error (.api (some code)))

/-- Metadata of a list; only its version and the mark of a next page are looked at. -/
structure ListMetadata where
  resourceVersion : Option String := none
  nextPage : Option String := none
  deriving DecidableEq

def ListMetadata.decode : Decoder ListMetadata :=
  Record.ofObject "ListMeta" ((fun nextPage _ resourceVersion _ => { resourceVersion, nextPage })
    <$> .optional "continue" Decoder.string
    <*> .optional "remainingItemCount" (Decoder.integer (-Int.pow 2 63) (Int.pow 2 63 - 1) "i64")
    <*> .optional "resourceVersion" Decoder.string
    <*> .optional "selfLink" Decoder.string)

/-- A list needs its items, which may be `null` for none. Its other fields are read, too. -/
def listDecoder (k : Kind) : Decoder (ListMetadata × List (Resource k)) :=
  let record : Record (ListMetadata × List (Resource k)) :=
    (fun metadata items => (metadata, items.getD []))
    <$> .defaulted "metadata" ListMetadata.decode {}
    <*> .required "items" (Decoder.optional (Decoder.list (Resource.decode k)))
  { record.ofObject "ObjectList" with shape := record.shape true true }

/-- Whether a deletion went well: one of two words, alone or as the only field of an object. -/
def outcomeWord : Decoder Unit where
  shape := .record true true (["Success", "Failure"].map fun w => (w, .whole, fun _ => true))
  read
  | .str s => word s
  | .obj [(s, .null)] => word s
  | j => .error (.invalidType j.found "variant")
where
  word (s : String) : Except Json.Fault Unit :=
    if s = "Success" || s = "Failure" then .ok ()
    else .error (.invalidValue (Json.found (.str s)) "variant")

def causeDecoder : Decoder Unit :=
  Record.ofObjectOrArray "StatusCause" ((fun _ _ _ => ())
    <$> .defaulted "reason" Decoder.string ""
    <*> .defaulted "message" Decoder.string ""
    <*> .defaulted "field" Decoder.string "")

def detailsDecoder : Decoder Unit :=
  Record.ofObjectOrArray "StatusDetails" ((fun _ _ _ _ _ _ => ())
    <$> .defaulted "name" Decoder.string ""
    <*> .defaulted "group" Decoder.string ""
    <*> .defaulted "kind" Decoder.string ""
    <*> .defaulted "uid" Decoder.string ""
    <*> .defaulted "causes" (Decoder.list causeDecoder) []
    <*> .defaulted "retryAfterSeconds" (Decoder.integer 0 (Int.pow 2 32 - 1) "u32") 0)

def statusDecoder : Decoder Unit :=
  Record.ofObjectOrArray "Status" ((fun _ _ _ _ _ => ())
    <$> .optional "status" outcomeWord
    <*> .defaulted "code" (Decoder.integer 0 65535 "u16") 0
    <*> .defaulted "message" Decoder.string ""
    <*> .defaulted "reason" Decoder.string ""
    <*> .optional "details" detailsDecoder)

/-- What is left of a deletion: a status or the object, in a draft without flaws. -/
def deleted? (k : Kind) (d : Json.Draft) : Option Bool := do
  let j ← d.toJson?
  if j.get? "kind" = some (.str "Status") then let _ ← statusDecoder.ofDraft? d
  else let _ ← (Resource.decode k).ofDraft? d
  return true

/-- The longest field manager, in bytes, under which an object is created. -/
def maxManager : Nat := 128

def managerParameters (manager : Option String) : List (String × String) :=
  manager.toList.map ("fieldManager", ·)

def selectorParameters (labels : Labels) : List (String × String) :=
  if labels.isEmpty then [] else [("labelSelector", labels.selectorText)]

/-- What the client does for a call, `manager` being recorded with every write. -/
def exchange (manager : Option String) : (c : Call) → Exchange c
  | .get k key =>
    if key.name.isEmpty then .settled (.api none)
    else .send ⟨.get, ⟨k, key.ns, some key.name⟩, [], none⟩
      (read (some <$> Resource.decode k).ofDraft? (refusedAs [(404, .ok none)]))
  | .list k ns labels =>
    .send ⟨.get, ⟨k, ns, none⟩, selectorParameters labels, none⟩
      (read (Prod.snd <$> listDecoder k).ofDraft? (refusedAs []))
  | .create k r =>
    match r.metadata.name with
    | none => .settled (.unnamed k)
    | some name =>
      if manager.any (·.utf8ByteSize > maxManager) then .settled (.api none)
      else .send ⟨.post, ⟨k, r.metadata.ns, none⟩, managerParameters manager, some r.encode⟩
        (read (Resource.decode k).ofDraft? (refusedAs [(409, .error (.alreadyExists k.name name))]))
  | .update k r =>
    match r.metadata.name with
    | none => .settled (.unnamed k)
    | some name =>
      if name.isEmpty then .settled (.api none)
      else .send ⟨.put, ⟨k, r.metadata.ns, some name⟩, managerParameters manager, some r.encode⟩
        (read (Resource.decode k).ofDraft? (refusedAs
          [(409, .error (.conflict k.name name)), (404, .error (.notFound k.name name))]))
  | .delete k key =>
    if key.name.isEmpty then .settled (.api none)
    else .send ⟨.delete, ⟨k, key.ns, some key.name⟩, [],
        some (.obj [("propagationPolicy", .str "Background")])⟩
      (read (deleted? k) (refusedAs [(404, .ok false)]))

def exhausted : Reply := .ofJson 500 .null

/-- A call against a server that gives its replies in turn: the answer, the request sent, and the
replies that are left. -/
def perform (manager : Option String) (replies : List Reply) (c : Call) :
    Except Error c.Answer × Option Wire × List Reply :=
  match exchange manager c with
  | .settled e => (.error e, none, replies)
  | .send q next =>
    match q.wire? with
    | none => (.error (.api none), none, replies)
    | some w => (next (replies.headD exhausted), some w, replies.tail)

end Cluster
end TenantOperator
