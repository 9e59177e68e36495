import TenantOperator.Naming
import TenantOperator.Resource.Schema

/-! Object metadata, and the keys by which objects are addressed. -/
namespace TenantOperator

/-- Name and namespace of an object; cluster-wide objects have no namespace. -/
structure Key where
  name : String
  ns : Option String := none
  deriving DecidableEq, Inhabited

namespace Key

def text (k : Key) : String :=
  match k.ns with
  | some ns => ns ++ "/" ++ k.name
  | none => k.name

def inSpace (ns name : String) : Key := ⟨name, some ns⟩

def clusterWide (name : String) : Key := ⟨name, none⟩

/-- Keys are ordered by namespace, none first, then by name. -/
instance : Ord Key := ⟨compareLex (compareOn Key.ns) (compareOn Key.name)⟩

instance : Std.TransOrd Key :=
  inferInstanceAs (Std.TransCmp (compareLex (compareOn Key.ns) (compareOn Key.name)))

instance : Std.LawfulEqOrd Key where
  eq_of_compare {a b} h := by
    obtain ⟨h₁, h₂⟩ := compareLex_eq_eq.1 h
    have h₁ : compare a.ns b.ns = .eq := h₁
    have h₂ : compare a.name b.name = .eq := h₂
    cases a; cases b
    cases Std.LawfulEqCmp.eq_of_compare h₁
    cases Std.LawfulEqCmp.eq_of_compare h₂
    rfl

end Key

structure Metadata where
  name : Option String := none
  ns : Option String := none
  generateName : Option String := none
  labels : Option Labels := none
  annotations : Option Labels := none
  resourceVersion : Option String := none
  uid : Option String := none
  others : Details := []
  deriving DecidableEq, Inhabited

namespace Metadata

/-- The name, else the name it is to be generated from, else the empty name. -/
def anyName (m : Metadata) : String := (m.name <|> m.generateName).getD ""

def key (m : Metadata) : Key := ⟨m.anyName, m.ns⟩

/-- Absent labels are no labels. -/
def labelMap (m : Metadata) : Labels := m.labels.getD ∅

def satisfies (m : Metadata) (selector : Labels) : Bool :=
  selector.entries.all fun (k, v) => m.labelMap.find? k = some v

def encode (m : Metadata) : Json :=
  .ofFields ([("annotations", m.annotations.map .ofTexts),
    ("generateName", m.generateName.map .str), ("labels", m.labels.map .ofTexts),
    ("name", m.name.map .str), ("namespace", m.ns.map .str),
    ("resourceVersion", m.resourceVersion.map .str), ("uid", m.uid.map .str)] ++ m.others.fields)

open Schema in
/-- What the operator does not look at. -/
def otherParts : List Part :=
  let entry := Schema.record "ManagedFieldsEntry"
    (may text ["apiVersion", "fieldsType", "manager", "operation", "subresource"]
      ++ may any ["fieldsV1"] ++ may time ["time"])
  let owner := Schema.record "OwnerReference"
    (must text ["apiVersion", "kind", "name", "uid"]
      ++ may flag ["blockOwnerDeletion", "controller"])
  may time ["creationTimestamp", "deletionTimestamp"]
    ++ may int64 ["deletionGracePeriodSeconds", "generation"] ++ may texts ["finalizers"]
    ++ may (list entry) ["managedFields"] ++ may (list owner) ["ownerReferences"]
    ++ may text ["selfLink"]

open Json in
def record : Record Metadata :=
  (fun annotations generateName labels name ns resourceVersion uid others =>
    { name, ns, generateName, labels, annotations, resourceVersion, uid, others })
  <$> .optional "annotations" Decoder.texts
  <*> .optional "generateName" Decoder.string
  <*> .optional "labels" Decoder.texts
  <*> .optional "name" Decoder.string
  <*> .optional "namespace" Decoder.string
  <*> .optional "resourceVersion" Decoder.string
  <*> .optional "uid" Decoder.string
  <*> Details.record otherParts

def decode : Json.Decoder Metadata := record.ofObject "ObjectMeta"

end Metadata

/-- A selector as the cluster's API takes it. -/
def Labels.selectorText (l : Labels) : String :=
  ",".intercalate (l.entries.map fun (k, v) => k ++ "=" ++ v)

end TenantOperator
