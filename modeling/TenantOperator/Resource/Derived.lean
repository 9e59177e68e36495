import TenantOperator.Resource.Pod

/-! Contents of the built-in kinds beside routing tables. Absent and `null` fields are the same, and
fields that a kind does not have are not kept. -/
namespace TenantOperator
open Json (Record Decoder)

structure BundleData where
  data : Option Labels := none
  others : Details := []
  deriving DecidableEq

namespace BundleData

def fields (d : BundleData) : List (String × Option Json) :=
  ("data", d.data.map .ofTexts) :: d.others.fields

def record : Record BundleData :=
  (fun data others => { data, others })
  <$> .optional "data" Decoder.texts
  <*> Details.record (may (.map .bytes) ["binaryData"] ++ may .flag ["immutable"])

end BundleData

/-- What is asked for, and what the cluster reports of it. -/
structure Specified (σ : Type) where
  spec : Option σ := none
  others : Details := []
  deriving DecidableEq

namespace Specified
variable {σ : Type}

def fields (encode : σ → Json) (s : Specified σ) : List (String × Option Json) :=
  ("spec", s.spec.map encode) :: s.others.fields

def record (d : Decoder σ) (status : Schema) : Record (Specified σ) :=
  (fun spec others => { spec, others })
  <$> .optional "spec" d
  <*> Details.record (may status ["status"])

end Specified

structure DeploymentSpec where
  replicas : Option Int := none
  selector : LabelSelector := {}
  template : PodTemplate := {}
  others : Details := []
  deriving DecidableEq

namespace DeploymentSpec

def encode (s : DeploymentSpec) : Json :=
  .ofFields ([("replicas", s.replicas.map .int), ("selector", some s.selector.encode),
    ("template", some s.template.encode)] ++ s.others.fields)

def decode : Decoder DeploymentSpec :=
  Record.ofObject "DeploymentSpec" ((fun replicas selector template others =>
      { replicas, selector, template, others })
    <$> .optional "replicas" Decoder.int32
    <*> .orDefault "selector" LabelSelector.decode {}
    <*> .orDefault "template" PodTemplate.decode {}
    <*> Details.record
      (may .int32 ["minReadySeconds", "progressDeadlineSeconds", "revisionHistoryLimit"]
        ++ may .flag ["paused"]
        ++ [.object "strategy" "DeploymentStrategy"
          (.object "rollingUpdate" "RollingUpdateDeployment"
            (may .port ["maxSurge", "maxUnavailable"]) :: may .text ["type"])]))

def status : Schema :=
  let condition : Schema := .record "DeploymentCondition"
    (may .time ["lastTransitionTime", "lastUpdateTime"] ++ may .text ["message", "reason"]
      ++ must .text ["status", "type"])
  .record "DeploymentStatus"
    (may .int32 ["availableReplicas", "collisionCount", "readyReplicas", "replicas",
        "unavailableReplicas", "updatedReplicas"]
      ++ may (.list condition) ["conditions"] ++ may .int64 ["observedGeneration"])

end DeploymentSpec

structure ServicePort where
  name : Option String := none
  port : Int
  targetPort : Option PortRef := none
  protocol : Option String := none
  others : Details := []
  deriving DecidableEq

namespace ServicePort

def encode (p : ServicePort) : Json :=
  .ofFields ([("name", p.name.map .str), ("port", some (.int p.port)),
    ("protocol", p.protocol.map .str), ("targetPort", p.targetPort.map PortRef.encode)]
    ++ p.others.fields)

def decode : Decoder ServicePort :=
  Record.ofObject "ServicePort" ((fun name port protocol targetPort others =>
      { name, port, targetPort, protocol, others })
    <$> .optional "name" Decoder.string
    <*> .orDefault "port" Decoder.int32 0
    <*> .optional "protocol" Decoder.string
    <*> .optional "targetPort" PortRef.decode
    <*> Details.record (may .text ["appProtocol"] ++ may .int32 ["nodePort"]))

end ServicePort

structure ServiceSpec where
  type : Option String := none
  selector : Option Labels := none
  ports : Option (List ServicePort) := none
  others : Details := []
  deriving DecidableEq

namespace ServiceSpec

def encode (s : ServiceSpec) : Json :=
  .ofFields ([("ports", s.ports.map fun l => .arr (l.map ServicePort.encode)),
    ("selector", s.selector.map .ofTexts), ("type", s.type.map .str)] ++ s.others.fields)

def otherParts : List Part :=
  may .flag ["allocateLoadBalancerNodePorts", "publishNotReadyAddresses"]
    ++ may .text ["clusterIP", "externalName", "externalTrafficPolicy", "internalTrafficPolicy",
      "ipFamilyPolicy", "loadBalancerClass", "loadBalancerIP", "sessionAffinity",
      "trafficDistribution"]
    ++ may .texts ["clusterIPs", "externalIPs", "ipFamilies", "loadBalancerSourceRanges"]
    ++ may .int32 ["healthCheckNodePort"]
    ++ [.object "sessionAffinityConfig" "SessionAffinityConfig"
      [.object "clientIP" "ClientIPConfig" (may .int32 ["timeoutSeconds"])]]

def decode : Decoder ServiceSpec :=
  Record.ofObject "ServiceSpec" ((fun ports selector type others =>
      { type, selector, ports, others })
    <$> .optional "ports" (Decoder.list ServicePort.decode)
    <*> .optional "selector" Decoder.texts
    <*> .optional "type" Decoder.string
    <*> Details.record otherParts)

def status : Schema :=
  let condition : Schema := .record "Condition"
    (must .time ["lastTransitionTime"] ++ must .text ["message", "reason", "status", "type"]
      ++ may .int64 ["observedGeneration"])
  let port : Schema := .record "PortStatus"
    (may .text ["error"] ++ must .int32 ["port"] ++ must .text ["protocol"])
  let entrance : Schema := .record "LoadBalancerIngress"
    (may .text ["hostname", "ip", "ipMode"] ++ may (.list port) ["ports"])
  .record "ServiceStatus"
    (.object "loadBalancer" "LoadBalancerStatus" (may (.list entrance) ["ingress"])
      :: may (.list condition) ["conditions"])

end ServiceSpec

def spaceParts : List Part :=
  let condition : Schema := .record "NamespaceCondition"
    (may .time ["lastTransitionTime"] ++ may .text ["message", "reason"]
      ++ must .text ["status", "type"])
  [.object "spec" "NamespaceSpec" (may .texts ["finalizers"]),
   .object "status" "NamespaceStatus" (may (.list condition) ["conditions"] ++ may .text ["phase"])]

end TenantOperator
