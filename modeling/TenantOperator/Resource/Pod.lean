import TenantOperator.Resource.Volume

/-! Pods and the templates they are made from. -/
namespace TenantOperator
open Json (Record Decoder)

namespace Placement

def nodeTerm : Schema :=
  let requirement : Schema := .record "NodeSelectorRequirement"
    (must .text ["key", "operator"] ++ may .texts ["values"])
  .record "NodeSelectorTerm" (may (.list requirement) ["matchExpressions", "matchFields"])

def podTerm : Schema :=
  .record "PodAffinityTerm"
    (may LabelSelector.schema ["labelSelector", "namespaceSelector"]
      ++ may .texts ["matchLabelKeys", "mismatchLabelKeys", "namespaces"]
      ++ must .text ["topologyKey"])

/-- What is wished for, and what must be. -/
def rules (name : String) (preferred required : Schema) : Schema :=
  .record name
    (may (.list preferred) ["preferredDuringSchedulingIgnoredDuringExecution"]
      ++ may required ["requiredDuringSchedulingIgnoredDuringExecution"])

def affinity : Schema :=
  let preferredNode : Schema := .record "PreferredSchedulingTerm"
    (must nodeTerm ["preference"] ++ must .int32 ["weight"])
  let nodes : Schema := .record "NodeSelector" (must (.list nodeTerm) ["nodeSelectorTerms"])
  let preferredPod : Schema := .record "WeightedPodAffinityTerm"
    (must podTerm ["podAffinityTerm"] ++ must .int32 ["weight"])
  .record "Affinity"
    (may (rules "NodeAffinity" preferredNode nodes) ["nodeAffinity"]
      ++ may (rules "PodAffinity" preferredPod (.list podTerm)) ["podAffinity"]
      ++ may (rules "PodAntiAffinity" preferredPod (.list podTerm)) ["podAntiAffinity"])

def toleration : Schema :=
  .record "Toleration"
    (may .text ["effect", "key", "operator", "value"] ++ may .int64 ["tolerationSeconds"])

def spread : Schema :=
  .record "TopologySpreadConstraint"
    (may LabelSelector.schema ["labelSelector"] ++ may .texts ["matchLabelKeys"]
      ++ must .int32 ["maxSkew"] ++ may .int32 ["minDomains"]
      ++ may .text ["nodeAffinityPolicy", "nodeTaintsPolicy"]
      ++ must .text ["topologyKey", "whenUnsatisfiable"])

end Placement

structure PodSpec where
  containers : List Container := []
  volumes : Option (List Volume) := none
  others : Details := []
  deriving DecidableEq

namespace PodSpec

def encode (p : PodSpec) : Json :=
  .ofFields ([("containers", some (.arr (p.containers.map Container.encode))),
    ("volumes", p.volumes.map fun l => .arr (l.map Volume.encode))] ++ p.others.fields)

def security : Schema :=
  let setting : Schema := .record "Sysctl" (must .text ["name", "value"])
  .record "PodSecurityContext"
    (Care.securityParts ++ may .int64 ["fsGroup"]
      ++ may .text ["fsGroupChangePolicy", "seLinuxChangePolicy", "supplementalGroupsPolicy"]
      ++ may (.list .int64) ["supplementalGroups"] ++ may (.list setting) ["sysctls"])

def dns : Schema :=
  let option : Schema := .record "PodDNSConfigOption" (may .text ["name", "value"])
  .record "PodDNSConfig" (may .texts ["nameservers", "searches"] ++ may (.list option) ["options"])

def named (name : String) : Schema := .record name (must .text ["name"])

def claim : Schema :=
  .record "PodResourceClaim"
    (must .text ["name"] ++ may .text ["resourceClaimName", "resourceClaimTemplateName"])

open Placement in
def otherParts : List Part :=
  may .int64 ["activeDeadlineSeconds", "terminationGracePeriodSeconds"]
    ++ may affinity ["affinity"]
    ++ may .flag ["automountServiceAccountToken", "enableServiceLinks", "hostIPC", "hostNetwork",
      "hostPID", "hostUsers", "setHostnameAsFQDN", "shareProcessNamespace"]
    ++ may dns ["dnsConfig"]
    ++ may .text ["dnsPolicy", "hostname", "nodeName", "preemptionPolicy", "priorityClassName",
      "restartPolicy", "runtimeClassName", "schedulerName", "serviceAccount", "serviceAccountName",
      "subdomain"]
    ++ may (.list Container.ephemeral) ["ephemeralContainers"]
    ++ may (.list (.record "HostAlias" (may .texts ["hostnames"] ++ must .text ["ip"])))
      ["hostAliases"]
    ++ may (.list VolumeSource.localReference) ["imagePullSecrets"]
    ++ may (.list Container.schema) ["initContainers"]
    ++ may .textMap ["nodeSelector", "overhead"] ++ may (named "PodOS") ["os"]
    ++ may .int32 ["priority"]
    ++ may (.list (.record "PodReadinessGate" (must .text ["conditionType"]))) ["readinessGates"]
    ++ may (.list claim) ["resourceClaims"] ++ may Care.resources ["resources"]
    ++ may (.list (named "PodSchedulingGate")) ["schedulingGates"]
    ++ may security ["securityContext"] ++ may (.list toleration) ["tolerations"]
    ++ may (.list spread) ["topologySpreadConstraints"]

def decode : Decoder PodSpec :=
  Record.ofObject "PodSpec" ((fun containers volumes others => { containers, volumes, others })
    <$> .orDefault "containers" (Decoder.list Container.decode) []
    <*> .optional "volumes" (Decoder.list Volume.decode)
    <*> Details.record otherParts)

end PodSpec

structure PodTemplate where
  metadata : Option Metadata := none
  spec : Option PodSpec := none
  deriving DecidableEq

namespace PodTemplate

def encode (t : PodTemplate) : Json :=
  .ofFields [("metadata", t.metadata.map Metadata.encode), ("spec", t.spec.map PodSpec.encode)]

def decode : Decoder PodTemplate :=
  Record.ofObject "PodTemplateSpec" ((fun metadata spec => { metadata, spec })
    <$> .optional "metadata" Metadata.decode
    <*> .optional "spec" PodSpec.decode)

end PodTemplate
end TenantOperator
