import TenantOperator.Resource.Kind
import TenantOperator.Yaml.Writer

/-! Definitions of the declared kinds, as a cluster takes them before it holds such objects. -/
namespace TenantOperator
namespace Manifest

inductive Shape where
  | requiredText
  /-- A text that is empty where it is left out. -/
  | text
  /-- A text that may be left out or `null`. -/
  | nullableText
  /-- Any document; an empty object where it is left out. -/
  | document
  deriving DecidableEq

structure Property where
  name : String
  description : String
  shape : Shape

structure Column where
  name : String
  type : String
  path : String

structure Definition where
  kind : Kind
  shortName : String
  specName : String
  description : String
  /-- In name order. -/
  properties : List Property
  columns : List Column := []

def ageColumn : Column := ⟨"Age", "date", ".metadata.creationTimestamp"⟩

def nameDescription : String := "Human-readable name"
def descriptionDescription : String := "Human-readable description"
def documentDescription : String := "Opaque configuration document"

def inst : Definition where
  kind := .inst
  shortName := "dci"
  specName := "InstanceSpec"
  description := "Specification for an Instance"
  properties :=
    [⟨"configurationId", "Name of the InstanceConfiguration resolved into the instance bundle",
      .requiredText⟩,
     ⟨"description", descriptionDescription, .text⟩, ⟨"name", nameDescription, .requiredText⟩]
  columns := [⟨"Name", "string", ".spec.name"⟩, ⟨"Config", "string", ".spec.configurationId"⟩,
    ageColumn]

def instTemplate : Definition where
  kind := .instTemplate
  shortName := "dcic"
  specName := "InstanceConfigurationSpec"
  description := "Specification for an InstanceConfiguration template"
  properties := [⟨"configuration", documentDescription, .document⟩]

def microservice : Definition where
  kind := .microservice
  shortName := "dcm"
  specName := "MicroserviceSpec"
  description := "Specification for a Microservice\n\nA Microservice lives in its instance's " ++
    "namespace and is paired with every tenant of that instance."
  properties :=
    [⟨"configId", "Name of the MicroserviceConfiguration copied into new pairings", .requiredText⟩,
     ⟨"description", descriptionDescription, .text⟩,
     ⟨"functionalArea", "Functional area; keys the tenant bundle entry and the routing path",
      .requiredText⟩,
     ⟨"image", "Container image", .requiredText⟩,
     ⟨"imagePullPolicy", "Image pull policy (Always, IfNotPresent, Never)", .nullableText⟩,
     ⟨"name", nameDescription, .requiredText⟩]
  columns := [⟨"Area", "string", ".spec.functionalArea"⟩, ⟨"Image", "string", ".spec.image"⟩,
    ageColumn]

def microserviceTemplate : Definition where
  kind := .microserviceTemplate
  shortName := "dcmc"
  specName := "MicroserviceConfigurationSpec"
  description := "Specification for a MicroserviceConfiguration template"
  properties :=
    [⟨"configuration", documentDescription, .document⟩,
     ⟨"functionalArea", "Functional area the template was written for", .text⟩,
     ⟨"image", "Image the template was written for", .text⟩]

def tenant : Definition where
  kind := .tenant
  shortName := "dct"
  specName := "TenantSpec"
  description :=
    "Specification for a Tenant\n\nTenants live in the namespace of the instance they belong to."
  properties :=
    [⟨"description", descriptionDescription, .text⟩, ⟨"name", nameDescription, .requiredText⟩]
  columns := [⟨"Name", "string", ".spec.name"⟩, ageColumn]

def pairing : Definition where
  kind := .pairing
  shortName := "dctm"
  specName := "TenantMicroserviceSpec"
  description := "Specification for a TenantMicroservice (pairing)\n\nPairings are materialized " ++
    "by the operator, one per (tenant, microservice) in an instance. The configuration is " ++
    "copied from the microservice's template when the pairing is created and never re-synced " ++
    "afterwards."
  properties :=
    [⟨"configuration", "Tenant-specific microservice configuration", .document⟩,
     ⟨"microserviceId", "Microservice id", .requiredText⟩, ⟨"tenantId", "Tenant id", .requiredText⟩]
  columns := [⟨"Tenant", "string", ".spec.tenantId"⟩,
    ⟨"Microservice", "string", ".spec.microserviceId"⟩, ageColumn]

def definitions : List Definition :=
  [inst, instTemplate, microservice, microserviceTemplate, tenant, pairing]

def Property.schema (p : Property) : Json :=
  .ofFields [
    ("default", match p.shape with
      | .text => some (.str "")
      | .document => some (.obj [])
      | _ => none),
    ("description", some (.str p.description)),
    ("nullable", if p.shape = .nullableText then some (.bool true) else none),
    ("type", some (.str (if p.shape = .document then "object" else "string"))),
    ("x-kubernetes-preserve-unknown-fields",
      if p.shape = .document then some (.bool true) else none)]

namespace Definition

def specSchema (d : Definition) : Json :=
  let required := d.properties.filter (·.shape = .requiredText)
  .ofFields [
    ("description", some (.str d.description)),
    ("properties", some (.obj (d.properties.map fun p => (p.name, p.schema)))),
    ("required", if required.isEmpty then none
      else some (.arr (required.map fun p => .str p.name))),
    ("type", some (.str "object"))]

def schema (d : Definition) : Json :=
  .obj [
    ("description", .str ("Auto-generated derived type for " ++ d.specName ++
      " via \x60CustomResource\x60")),
    ("properties", .obj [("spec", d.specSchema)]),
    ("required", .arr [.str "spec"]),
    ("title", .str d.kind.name),
    ("type", .str "object")]

def version (d : Definition) : Json :=
  .obj [
    ("additionalPrinterColumns", .arr (d.columns.map fun c =>
      .obj [("jsonPath", .str c.path), ("name", .str c.name), ("type", .str c.type)])),
    ("name", .str d.kind.version),
    ("schema", .obj [("openAPIV3Schema", d.schema)]),
    ("served", .bool true),
    ("storage", .bool true),
    ("subresources", .obj [])]

def names (d : Definition) : Json :=
  .obj [
    ("categories", .arr []),
    ("kind", .str d.kind.name),
    ("plural", .str d.kind.plural),
    ("shortNames", .arr [.str d.shortName]),
    ("singular", .str (d.kind.name.map Char.toLower))]

def encode (d : Definition) : Json :=
  .obj [
    ("apiVersion", .str "apiextensions.k8s.io/v1"),
    ("kind", .str "CustomResourceDefinition"),
    ("metadata", .obj [("name", .str (d.kind.plural ++ "." ++ d.kind.group))]),
    ("spec", .obj [
      ("group", .str d.kind.group),
      ("names", d.names),
      ("scope", .str (if d.kind.isNamespaced then "Namespaced" else "Cluster")),
      ("versions", .arr [d.version])])]

end Definition

def ofKind? (k : Kind) : Option Definition := definitions.find? (·.kind = k)

def definitionText : String := Yaml.documents (definitions.map Definition.encode)

end Manifest
end TenantOperator
