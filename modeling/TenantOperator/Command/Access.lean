import TenantOperator.Cluster.Address
import TenantOperator.Command.Options
import TenantOperator.Text.Blank
import TenantOperator.Text.Escaped

/-! How the command finds its cluster: by the files that describe clusters, or from inside of one.
It reads files by a plan, which says what to do with what they hold. -/
namespace TenantOperator
namespace Command

structure Report where
  status : Nat := 0
  out : String := ""
  err : String := ""
  deriving DecidableEq

/-- Why a file cannot be read, in the words and with the number of the operating system. -/
structure ReadFault where
  reason : String
  code : Nat
  deriving DecidableEq

def ReadFault.message (f : ReadFault) : String :=
  f.reason ++ " (os error " ++ toString f.code ++ ")"

/-- A run that has ended, wants to read a file, or goes on with a cluster. -/
inductive Plan where
  | finish (r : Report)
  | consult (path : String) (next : Except ReadFault String → Plan)
  | connect (o : Options)

def failed (message : String) : Report := { status := 1, err := "Error: " ++ message ++ "\n" }

inductive AccessFault where
  | unreadable (path : String) (f : ReadFault)
  | noContext
  | noPath
  deriving DecidableEq

def AccessFault.message : AccessFault → String
  | .unreadable path f =>
    "failed to read kubeconfig from '" ++ Text.quote path ++ "': " ++ f.message
  | .noContext => "failed to determine current context"
  | .noPath => "failed to find the path of kubeconfig"

/-- Reads the files that describe clusters. All of them have to be readable; if none says anything
there is no cluster to choose. -/
def describe (fault : AccessFault → Plan) (found : Plan) (blank : Bool) : List String → Plan
  | [] => if blank then fault .noContext else found
  | path :: rest => .consult path fun
    | .error f => fault (.unreadable path f)
    | .ok s => describe fault found (blank && Text.allBlank s) rest

def defaultPaths (env : String → Option String) : List String :=
  let named := ((env "KUBECONFIG").getD "").splitOn ":" |>.filter (!·.isEmpty)
  if named.isEmpty then
    match env "HOME" with
    | some home =>
      if home.isEmpty then []
      else [home ++ (if home.endsWith "/" then "" else "/") ++ ".kube/config"]
    | none => []
  else named

inductive InsideFault where
  | noVariable
  | badPort (f : Decimal.WholeFault)
  | badAddress (f : Cluster.Address.Fault)
  | noNamespace (f : ReadFault)
  deriving DecidableEq

def InsideFault.message : InsideFault → String
  | .noVariable =>
    "failed to read an incluster environment variable: environment variable not found"
  | .badPort f => "failed to parse cluster port: " ++ f.message
  | .badAddress f => "failed to parse cluster url: " ++ f.message
  | .noNamespace f => "failed to read the default namespace: " ++ f.message

def namespacePath : String := "/var/run/secrets/kubernetes.io/serviceaccount/namespace"

/-- Inside a cluster two variables name its server. -/
def insideFault? (env : String → Option String) : Option InsideFault :=
  match env "KUBERNETES_SERVICE_HOST", env "KUBERNETES_SERVICE_PORT" with
  | some host, some port =>
    match Decimal.natural (UInt16.size - 1) port with
    | .error f => some (.badPort f)
    | .ok n => (Cluster.Address.serverFault? host n).map .badAddress
  | _, _ => some .noVariable

def inside (env : String → Option String) (o : Options) (f : AccessFault) : Plan :=
  let nowhere (g : InsideFault) : Plan :=
    .finish (failed ("Failed to infer configuration: failed to infer config: in-cluster: ("
      ++ g.message ++ "), kubeconfig: (" ++ f.message ++ ")"))
  match insideFault? env with
  | some g => nowhere g
  | none => .consult namespacePath fun
    | .error g => nowhere (.noNamespace g)
    | .ok _ => .connect o

/-- Finds the cluster that the options, or else the environment, describe. -/
def connecting (env : String → Option String) (o : Options) : Plan :=
  match o.kubeconfig with
  | some path =>
    describe (fun
      | .unreadable path f =>
        .finish (failed ("Failed to read kubeconfig " ++ Text.quote path ++ ": "
          ++ (AccessFault.unreadable path f).message))
      | f => .finish (failed f.message)) (.connect o) true [path]
  | none =>
    match defaultPaths env with
    | [] => inside env o .noPath
    | paths => describe (inside env o) (.connect o) true paths

end Command
end TenantOperator
