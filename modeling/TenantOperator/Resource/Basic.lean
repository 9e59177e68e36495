import TenantOperator.Resource.Kind
import TenantOperator.Resource.Metadata
import TenantOperator.Resource.Declared
import TenantOperator.Resource.Derived
import TenantOperator.Resource.Route
import TenantOperator.Json.Writer

/-! Objects: metadata and the content that belongs to their kind, and their documents. -/
namespace TenantOperator
open Json (Record Decoder)

@[reducible] def Kind.Content : Kind → Type
  | .inst => InstanceSpec
  | .instTemplate => InstanceTemplateSpec
  | .microservice => MicroserviceSpec
  | .microserviceTemplate => MicroserviceTemplateSpec
  | .tenant => TenantSpec
  | .pairing => PairingSpec
  | .configMap => BundleData
  | .deployment => Specified DeploymentSpec
  | .service => Specified ServiceSpec
  | .ingress => Specified IngressSpec
  | .space => Details

instance (k : Kind) : DecidableEq k.Content := by
  cases k <;> (simp only [Kind.Content]; infer_instance)

structure Resource (k : Kind) where
  metadata : Metadata
  content : k.Content
  deriving DecidableEq

abbrev Instance := Resource .inst
abbrev InstanceTemplate := Resource .instTemplate
abbrev Microservice := Resource .microservice
abbrev MicroserviceTemplate := Resource .microserviceTemplate
abbrev Tenant := Resource .tenant
abbrev Pairing := Resource .pairing
abbrev ConfigMap := Resource .configMap
abbrev Deployment := Resource .deployment
abbrev Service := Resource .service
abbrev Ingress := Resource .ingress
abbrev Space := Resource .space

def Kind.encodeContent : (k : Kind) → k.Content → List (String × Option Json)
  | .inst, c => [("spec", some c.encode)]
  | .instTemplate, c => [("spec", some c.encode)]
  | .microservice, c => [("spec", some c.encode)]
  | .microserviceTemplate, c => [("spec", some c.encode)]
  | .tenant, c => [("spec", some c.encode)]
  | .pairing, c => [("spec", some c.encode)]
  | .configMap, c => c.fields
  | .deployment, c => c.fields DeploymentSpec.encode
  | .service, c => c.fields ServiceSpec.encode
  | .ingress, c => c.fields IngressSpec.encode
  | .space, c => c.fields

def Kind.contentRecord : (k : Kind) → Record k.Content
  | .inst => .required "spec" InstanceSpec.decode
  | .instTemplate => .required "spec" InstanceTemplateSpec.decode
  | .microservice => .required "spec" MicroserviceSpec.decode
  | .microserviceTemplate => .required "spec" MicroserviceTemplateSpec.decode
  | .tenant => .required "spec" TenantSpec.decode
  | .pairing => .required "spec" PairingSpec.decode
  | .configMap => BundleData.record
  | .deployment => Specified.record DeploymentSpec.decode DeploymentSpec.status
  | .service => Specified.record ServiceSpec.decode ServiceSpec.status
  | .ingress => Specified.record IngressSpec.decode IngressSpec.status
  | .space => Details.record spaceParts

namespace Resource
variable {k : Kind}

def name (r : Resource k) : String := r.metadata.anyName

def key (r : Resource k) : Key := r.metadata.key

def withVersion (r : Resource k) (v : Option String) : Resource k :=
  { r with metadata := { r.metadata with resourceVersion := v } }

@[simp] theorem key_withVersion (r : Resource k) (v : Option String) :
    (r.withVersion v).key = r.key := rfl

@[simp] theorem ns_key (r : Resource k) : r.key.ns = r.metadata.ns := rfl

def encode (r : Resource k) : Json :=
  .ofFields ([("apiVersion", some (.str k.apiVersion)), ("kind", some (.str k.name)),
    ("metadata", some r.metadata.encode)] ++ k.encodeContent r.content)

def fixedText (expected : String) : Decoder Unit where
  read
  | .str s =>
    if s = expected then .ok () else .error (.invalidValue (Json.found (.str s)) expected)
  | j => (Decoder.string j).map fun _ => ()

/-- Declared objects have metadata and a specification; built-in ones may leave out everything,
and must be of their kind where they name one. -/
def decode (k : Kind) : Decoder (Resource k) :=
  if k.isDeclared then
    Record.ofObjectOrArray k.name
      (Resource.mk <$> .required "metadata" Metadata.decode <*> k.contentRecord)
  else
    Record.ofObject k.name ((fun _ _ metadata content => Resource.mk metadata content)
      <$> .defaulted "apiVersion" (fixedText k.apiVersion) ()
      <*> .defaulted "kind" (fixedText k.name) ()
      <*> .orDefault "metadata" Metadata.decode {}
      <*> k.contentRecord)

end Resource

/-- The pairing of a tenant and a microservice: all of its name and labels come from the ids. -/
def Pairing.forPair (inst tenant microservice : String) (configuration : Configuration) :
    Pairing where
  metadata :=
    { name := some (Naming.pairing tenant microservice)
      ns := some inst
      labels := some (Naming.managedLabels tenant microservice) }
  content := { microserviceId := microservice, tenantId := tenant, configuration }

/-- The entry that stands for a configuration in a bundle. -/
def Configuration.entry (c : Configuration) : String := Json.text c

end TenantOperator
