import TenantOperator.Resource.Schema

/-! Containers of a pod: what they run, and with which ports, environment and volumes. -/
namespace TenantOperator
open Json (Record Decoder)

structure ContainerPort where
  name : Option String := none
  containerPort : Int
  others : Details := []
  deriving DecidableEq

namespace ContainerPort

def encode (p : ContainerPort) : Json :=
  .ofFields ([("containerPort", some (.int p.containerPort)), ("name", p.name.map .str)]
    ++ p.others.fields)

def decode : Decoder ContainerPort :=
  Record.ofObject "ContainerPort" ((fun containerPort name others =>
      { name, containerPort, others })
    <$> .orDefault "containerPort" Decoder.int32 0
    <*> .optional "name" Decoder.string
    <*> Details.record (may .text ["hostIP", "protocol"] ++ may .int32 ["hostPort"]))

end ContainerPort

structure EnvVar where
  name : String
  value : Option String := none
  others : Details := []
  deriving DecidableEq

namespace EnvVar

def encode (e : EnvVar) : Json :=
  .ofFields ([("name", some (.str e.name)), ("value", e.value.map .str)] ++ e.others.fields)

def podField : Schema :=
  .record "ObjectFieldSelector" (may .text ["apiVersion"] ++ must .text ["fieldPath"])

def amount : Schema :=
  .record "ResourceFieldSelector"
    (may .text ["containerName", "divisor"] ++ must .text ["resource"])

def entry (name : String) : Schema :=
  .record name (must .text ["key", "name"] ++ may .flag ["optional"])

def source : Schema :=
  .record "EnvVarSource"
    (may (entry "ConfigMapKeySelector") ["configMapKeyRef"] ++ may podField ["fieldRef"]
      ++ may amount ["resourceFieldRef"] ++ may (entry "SecretKeySelector") ["secretKeyRef"])

def decode : Decoder EnvVar :=
  Record.ofObject "EnvVar" ((fun name value others => { name, value, others })
    <$> .orDefault "name" Decoder.string ""
    <*> .optional "value" Decoder.string
    <*> Details.record (may source ["valueFrom"]))

def manySource : Schema :=
  let whole (name : String) : Schema :=
    .record name (must .text ["name"] ++ may .flag ["optional"])
  .record "EnvFromSource"
    (may (whole "ConfigMapEnvSource") ["configMapRef"] ++ may .text ["prefix"]
      ++ may (whole "SecretEnvSource") ["secretRef"])

end EnvVar

structure VolumeMount where
  name : String
  mountPath : String
  readOnly : Option Bool := none
  others : Details := []
  deriving DecidableEq

namespace VolumeMount

def encode (m : VolumeMount) : Json :=
  .ofFields ([("mountPath", some (.str m.mountPath)), ("name", some (.str m.name)),
    ("readOnly", m.readOnly.map .bool)] ++ m.others.fields)

def decode : Decoder VolumeMount :=
  Record.ofObject "VolumeMount" ((fun mountPath name readOnly others =>
      { mountPath, name, readOnly, others })
    <$> .orDefault "mountPath" Decoder.string ""
    <*> .orDefault "name" Decoder.string ""
    <*> .optional "readOnly" Decoder.boolean
    <*> Details.record
      (may .text ["mountPropagation", "recursiveReadOnly", "subPath", "subPathExpr"]))

end VolumeMount

namespace Care

def exec : Schema := .record "ExecAction" (may .texts ["command"])

def httpGet : Schema :=
  let header : Schema := .record "HTTPHeader" (must .text ["name", "value"])
  .record "HTTPGetAction"
    (may .text ["host", "path", "scheme"] ++ may (.list header) ["httpHeaders"]
      ++ must .port ["port"])

def tcpSocket : Schema := .record "TCPSocketAction" (may .text ["host"] ++ must .port ["port"])

def lifecycle : Schema :=
  let sleep : Schema := .record "SleepAction" (must .int64 ["seconds"])
  let handler : Schema := .record "LifecycleHandler"
    (may exec ["exec"] ++ may httpGet ["httpGet"] ++ may sleep ["sleep"]
      ++ may tcpSocket ["tcpSocket"])
  .record "Lifecycle" (may handler ["postStart", "preStop"])

def probe : Schema :=
  let grpc : Schema := .record "GRPCAction" (must .int32 ["port"] ++ may .text ["service"])
  .record "Probe"
    (may exec ["exec"] ++ may grpc ["grpc"] ++ may httpGet ["httpGet"]
      ++ may tcpSocket ["tcpSocket"]
      ++ may .int32 ["failureThreshold", "initialDelaySeconds", "periodSeconds",
        "successThreshold", "timeoutSeconds"]
      ++ may .int64 ["terminationGracePeriodSeconds"])

def resources : Schema :=
  let claim : Schema := .record "ResourceClaim" (must .text ["name"] ++ may .text ["request"])
  .record "ResourceRequirements"
    (may (.list claim) ["claims"] ++ may .textMap ["limits", "requests"])

def resizePolicy : Schema :=
  .record "ContainerResizePolicy" (must .text ["resourceName", "restartPolicy"])

def profile (name : String) : Schema :=
  .record name (may .text ["localhostProfile"] ++ must .text ["type"])

def seLinux : Schema := .record "SELinuxOptions" (may .text ["level", "role", "type", "user"])

def windows : Schema :=
  .record "WindowsSecurityContextOptions"
    (may .text ["gmsaCredentialSpec", "gmsaCredentialSpecName", "runAsUserName"]
      ++ may .flag ["hostProcess"])

/-- What pods and containers say alike. -/
def securityParts : List Part :=
  may (profile "AppArmorProfile") ["appArmorProfile"] ++ may .int64 ["runAsGroup", "runAsUser"]
    ++ may .flag ["runAsNonRoot"] ++ may seLinux ["seLinuxOptions"]
    ++ may (profile "SeccompProfile") ["seccompProfile"] ++ may windows ["windowsOptions"]

def security : Schema :=
  let capabilities : Schema := .record "Capabilities" (may .texts ["add", "drop"])
  .record "SecurityContext"
    (securityParts ++ may .flag ["allowPrivilegeEscalation", "privileged", "readOnlyRootFilesystem"]
      ++ may capabilities ["capabilities"] ++ may .text ["procMount"])

end Care

structure Container where
  name : String
  image : Option String := none
  imagePullPolicy : Option String := none
  ports : Option (List ContainerPort) := none
  env : Option (List EnvVar) := none
  volumeMounts : Option (List VolumeMount) := none
  others : Details := []
  deriving DecidableEq

namespace Container

def fields (c : Container) : List (String × Option Json) :=
  [("env", c.env.map fun l => .arr (l.map EnvVar.encode)), ("image", c.image.map .str),
    ("imagePullPolicy", c.imagePullPolicy.map .str), ("name", some (.str c.name)),
    ("ports", c.ports.map fun l => .arr (l.map ContainerPort.encode)),
    ("volumeMounts", c.volumeMounts.map fun l => .arr (l.map VolumeMount.encode))]
    ++ c.others.fields

def encode (c : Container) : Json := .ofFields c.fields

open Care in
def otherParts : List Part :=
  let device : Schema := .record "VolumeDevice" (must .text ["devicePath", "name"])
  may .texts ["args", "command"] ++ may (.list EnvVar.manySource) ["envFrom"]
    ++ may lifecycle ["lifecycle"] ++ may probe ["livenessProbe", "readinessProbe", "startupProbe"]
    ++ may (.list resizePolicy) ["resizePolicy"] ++ may resources ["resources"]
    ++ may security ["securityContext"] ++ may .flag ["stdin", "stdinOnce", "tty"]
    ++ may .text ["restartPolicy", "terminationMessagePath", "terminationMessagePolicy",
      "workingDir"]
    ++ may (.list device) ["volumeDevices"]

def record : Record Container :=
  (fun env image imagePullPolicy name ports volumeMounts others =>
    { name, image, imagePullPolicy, ports, env, volumeMounts, others })
  <$> .optional "env" (Decoder.list EnvVar.decode)
  <*> .optional "image" Decoder.string
  <*> .optional "imagePullPolicy" Decoder.string
  <*> .orDefault "name" Decoder.string ""
  <*> .optional "ports" (Decoder.list ContainerPort.decode)
  <*> .optional "volumeMounts" (Decoder.list VolumeMount.decode)
  <*> Details.record otherParts

def decode : Decoder Container := record.ofObject "Container"

def schema : Schema := .of encode decode { name := "" }

def ephemeral : Schema where
  decoder := Record.ofObject "EphemeralContainer" ((fun c target =>
      .ofFields (c.fields ++ [("targetContainerName", target)]))
    <$> record
    <*> (Option.map Json.str <$> .optional "targetContainerName" Decoder.string))
  empty := encode { name := "" }

end Container
end TenantOperator
