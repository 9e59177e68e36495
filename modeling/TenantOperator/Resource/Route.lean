import TenantOperator.Resource.Schema

/-! Routing tables: rules that lead from hosts and paths to services. -/
namespace TenantOperator
open Json (Record Decoder)

structure BackendPort where
  name : Option String := none
  number : Option Int := none
  deriving DecidableEq

def BackendPort.encode (p : BackendPort) : Json :=
  .ofFields [("name", p.name.map .str), ("number", p.number.map .int)]

def BackendPort.decode : Decoder BackendPort :=
  Record.ofObject "ServiceBackendPort" ((fun name number => { name, number })
    <$> .optional "name" Decoder.string
    <*> .optional "number" Decoder.int32)

structure ServiceBackend where
  name : String
  port : Option BackendPort := none
  deriving DecidableEq

def ServiceBackend.encode (b : ServiceBackend) : Json :=
  .ofFields [("name", some (.str b.name)), ("port", b.port.map BackendPort.encode)]

def ServiceBackend.decode : Decoder ServiceBackend :=
  Record.ofObject "IngressServiceBackend" ((fun name port => { name, port })
    <$> .orDefault "name" Decoder.string ""
    <*> .optional "port" BackendPort.decode)

/-- An object of some other kind behind a route. -/
structure ResourceBackend where
  apiGroup : Option String := none
  kind : String
  name : String
  deriving DecidableEq

def ResourceBackend.encode (b : ResourceBackend) : Json :=
  .ofFields [("apiGroup", b.apiGroup.map .str), ("kind", some (.str b.kind)),
    ("name", some (.str b.name))]

def ResourceBackend.decode : Decoder ResourceBackend :=
  Record.ofObject "TypedLocalObjectReference" ((fun apiGroup kind name => { apiGroup, kind, name })
    <$> .optional "apiGroup" Decoder.string
    <*> .orDefault "kind" Decoder.string ""
    <*> .orDefault "name" Decoder.string "")

structure Backend where
  resource : Option ResourceBackend := none
  service : Option ServiceBackend := none
  deriving DecidableEq

def Backend.encode (b : Backend) : Json :=
  .ofFields [("resource", b.resource.map ResourceBackend.encode),
    ("service", b.service.map ServiceBackend.encode)]

def Backend.decode : Decoder Backend :=
  Record.ofObject "IngressBackend" ((fun resource service => { resource, service })
    <$> .optional "resource" ResourceBackend.decode
    <*> .optional "service" ServiceBackend.decode)

structure RoutePath where
  backend : Backend := {}
  path : Option String := none
  pathType : String := ""
  deriving DecidableEq

def RoutePath.encode (p : RoutePath) : Json :=
  .ofFields [("backend", some p.backend.encode), ("path", p.path.map .str),
    ("pathType", some (.str p.pathType))]

def RoutePath.decode : Decoder RoutePath :=
  Record.ofObject "HTTPIngressPath" ((fun backend path pathType => { backend, path, pathType })
    <$> .orDefault "backend" Backend.decode {}
    <*> .optional "path" Decoder.string
    <*> .orDefault "pathType" Decoder.string "")

structure RouteRule where
  host : Option String := none
  /-- Paths of the rule's HTTP part. -/
  http : Option (List RoutePath) := none
  deriving DecidableEq

def RouteRule.encode (r : RouteRule) : Json :=
  .ofFields [("host", r.host.map .str),
    ("http", r.http.map fun paths => .obj [("paths", Json.arr (paths.map RoutePath.encode))])]

def RouteRule.decode : Decoder RouteRule :=
  Record.ofObject "IngressRule" ((fun host http => { host, http })
    <$> .optional "host" Decoder.string
    <*> .optional "http" (Record.ofObject "HTTPIngressRuleValue"
      (.orDefault "paths" (Decoder.list RoutePath.decode) [])))

structure RouteTls where
  hosts : Option (List String) := none
  secretName : Option String := none
  deriving DecidableEq

def RouteTls.encode (t : RouteTls) : Json :=
  .ofFields [("hosts", t.hosts.map fun l => .arr (l.map .str)),
    ("secretName", t.secretName.map .str)]

def RouteTls.decode : Decoder RouteTls :=
  Record.ofObject "IngressTLS" ((fun hosts secretName => { hosts, secretName })
    <$> .optional "hosts" (Decoder.list Decoder.string)
    <*> .optional "secretName" Decoder.string)

structure IngressSpec where
  defaultBackend : Option Backend := none
  ingressClassName : Option String := none
  rules : Option (List RouteRule) := none
  tls : Option (List RouteTls) := none
  deriving DecidableEq

def IngressSpec.encode (s : IngressSpec) : Json :=
  .ofFields [("defaultBackend", s.defaultBackend.map Backend.encode),
    ("ingressClassName", s.ingressClassName.map .str),
    ("rules", s.rules.map fun l => .arr (l.map RouteRule.encode)),
    ("tls", s.tls.map fun l => .arr (l.map RouteTls.encode))]

def IngressSpec.decode : Decoder IngressSpec :=
  Record.ofObject "IngressSpec" ((fun defaultBackend ingressClassName rules tls =>
      { defaultBackend, ingressClassName, rules, tls })
    <$> .optional "defaultBackend" Backend.decode
    <*> .optional "ingressClassName" Decoder.string
    <*> .optional "rules" (Decoder.list RouteRule.decode)
    <*> .optional "tls" (Decoder.list RouteTls.decode))

namespace IngressSpec

def status : Schema :=
  let port : Schema := .record "IngressPortStatus"
    (may .text ["error"] ++ must .int32 ["port"] ++ must .text ["protocol"])
  let entrance : Schema := .record "IngressLoadBalancerIngress"
    (may .text ["hostname", "ip"] ++ may (.list port) ["ports"])
  .record "IngressStatus"
    [.object "loadBalancer" "IngressLoadBalancerStatus" (may (.list entrance) ["ingress"])]

end IngressSpec
end TenantOperator
