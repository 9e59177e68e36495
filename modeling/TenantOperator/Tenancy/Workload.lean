import TenantOperator.Store.Program

/-! Workload and endpoint of a pairing: one Deployment and one Service of the pairing's name. They
are made once; nothing that exists is compared or changed. -/
namespace TenantOperator
namespace Workload

def instanceVolume : String := "instance-config"
def tenantVolume : String := "tenant-config"

def metadata (inst tenant microservice : String) : Metadata where
  name := some (Naming.pairing tenant microservice)
  ns := some inst
  labels := some (Naming.managedLabels tenant microservice)

/-- The pod learns whom it runs for from its environment. -/
def environment (i : Instance) (t : Tenant) (m : Microservice) : List EnvVar :=
  [("DC_INSTANCE_ID", i.name), ("DC_TENANT_ID", t.name), ("DC_TENANT_NAME", t.content.name),
   ("DC_MICROSERVICE_ID", m.name), ("DC_MICROSERVICE_NAME", m.content.name),
   ("DC_MS_FUNCTIONAL_AREA", m.content.functionalArea)].map fun (name, value) =>
    { name, value := some value }

def container (i : Instance) (t : Tenant) (m : Microservice) : Container where
  name := m.name
  image := some m.content.image
  imagePullPolicy := m.content.imagePullPolicy
  ports := some [{ name := some "http", containerPort := Naming.servicePort }]
  env := some (environment i t m)
  volumeMounts := some
    [{ name := instanceVolume, mountPath := "/etc/dci-config", readOnly := some true },
     { name := tenantVolume, mountPath := "/etc/dct-config", readOnly := some true }]

/-- Both bundles are volumes of the pod. -/
def pod (i : Instance) (t : Tenant) (m : Microservice) : PodSpec where
  containers := [container i t m]
  volumes := some
    [{ name := instanceVolume, configMap := some { name := Naming.instanceBundle i.name } },
     { name := tenantVolume, configMap := some { name := Naming.tenantBundle t.name } }]

def deployment (i : Instance) (t : Tenant) (m : Microservice) : Deployment where
  metadata := metadata i.name t.name m.name
  content :=
    { spec := some
        { replicas := some 1
          selector := { matchLabels := some (Naming.pairingLabels t.name m.name) }
          template :=
            { metadata := some { labels := some (Naming.pairingLabels t.name m.name) }
              spec := some (pod i t m) } } }

def service (i : Instance) (t : Tenant) (m : Microservice) : Service where
  metadata := metadata i.name t.name m.name
  content :=
    { spec := some
        { type := some "ClusterIP"
          selector := some (Naming.pairingLabels t.name m.name)
          ports := some
            [{ name := some "http", port := Naming.servicePort
               targetPort := some (.number Naming.servicePort), protocol := some "TCP" }] } }

inductive Synthesis where
  /-- The Deployment was there; nothing was touched. -/
  | existing
  | created
  deriving DecidableEq

def Synthesis.name : Synthesis → String
  | existing => "Existing"
  | created => "Created"

def missingTenant (pairing tenant : String) : Error :=
  .invariant ("pairing " ++ pairing ++ " references missing tenant " ++ tenant)

def missingMicroservice (pairing microservice : String) : Error :=
  .invariant ("pairing " ++ pairing ++ " references missing microservice " ++ microservice)

def missingInstance (pairing ns : String) : Error :=
  .invariant ("pairing " ++ pairing ++ " lives in namespace " ++ ns ++ " without an instance")

/-- An object that must be there, or else the hierarchy is broken. -/
def parent (k : Kind) (key : Key) (e : Error) : Program (Resource k) := do
  match ← Program.get k key with
  | some r => return r
  | none => .fail e

/-- Makes what is missing, the Service first, so that no Deployment is ever without its Service. -/
def synthesize (p : Pairing) : Program Synthesis := do
  match p.metadata.ns with
  | none => .fail (.invariant ("pairing " ++ p.name ++ " has no namespace"))
  | some ns =>
    match ← Program.get .deployment (.inSpace ns p.name) with
    | some _ => return .existing
    | none =>
      let t ← parent .tenant (.inSpace ns p.content.tenantId)
        (missingTenant p.name p.content.tenantId)
      let m ← parent .microservice (.inSpace ns p.content.microserviceId)
        (missingMicroservice p.name p.content.microserviceId)
      let i ← parent .inst (.clusterWide ns) (missingInstance p.name ns)
      let _ ← ensureCreated (service i t m)
      let _ ← ensureCreated (deployment i t m)
      return .created

end Workload
end TenantOperator
