/-! The kinds of objects the operator reads and writes: the six declared kinds of its own group,
and the five built-in kinds of the cluster. -/
namespace TenantOperator

inductive Kind where
  /-- The top-level deployment unit; its name is also the name of its namespace. -/
  | inst
  /-- Configuration template of instances. -/
  | instTemplate
  | microservice
  /-- Configuration template of microservices. -/
  | microserviceTemplate
  | tenant
  /-- A tenant together with a microservice of its instance. -/
  | pairing
  | configMap
  | deployment
  | service
  | ingress
  /-- The namespace that isolates what an instance owns. -/
  | space
  deriving DecidableEq, Inhabited

namespace Kind

def all : List Kind :=
  [inst, instTemplate, microservice, microserviceTemplate, tenant, pairing, configMap, deployment,
   service, ingress, space]

def name : Kind → String
  | inst => "Instance"
  | instTemplate => "InstanceConfiguration"
  | microservice => "Microservice"
  | microserviceTemplate => "MicroserviceConfiguration"
  | tenant => "Tenant"
  | pairing => "TenantMicroservice"
  | configMap => "ConfigMap"
  | deployment => "Deployment"
  | service => "Service"
  | ingress => "Ingress"
  | space => "Namespace"

def ofName? (s : String) : Option Kind := all.find? (·.name = s)

def plural : Kind → String
  | inst => "instances"
  | instTemplate => "instanceconfigurations"
  | microservice => "microservices"
  | microserviceTemplate => "microserviceconfigurations"
  | tenant => "tenants"
  | pairing => "tenantmicroservices"
  | configMap => "configmaps"
  | deployment => "deployments"
  | service => "services"
  | ingress => "ingresses"
  | space => "namespaces"

/-- API group; the core group has no name. -/
def group : Kind → String
  | configMap | service | space => ""
  | deployment => "apps"
  | ingress => "networking.k8s.io"
  | _ => "core.devicechain.io"

def isDeclared : Kind → Bool
  | configMap | deployment | service | ingress | space => false
  | _ => true

def version (k : Kind) : String := if k.isDeclared then "v1beta1" else "v1"

def apiVersion (k : Kind) : String :=
  if k.group = "" then k.version else k.group ++ "/" ++ k.version

def isNamespaced : Kind → Bool
  | inst | instTemplate | microserviceTemplate | space => false
  | _ => true

end Kind
end TenantOperator
