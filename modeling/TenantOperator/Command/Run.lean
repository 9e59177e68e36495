import TenantOperator.Command.Access
import TenantOperator.Command.Arguments
import TenantOperator.Command.Filter
import TenantOperator.Manifest.Definition

/-! A run of the command, up to the point where it needs a cluster. What it does depends on the
arguments, the environment and the files that it reads. -/
namespace TenantOperator
namespace Command

def misused (e : UsageError) : Report where
  status := 2
  err := "error: " ++ e.message ++ "\n\nFor more information, try '--help'.\n"

def versionText : String := Naming.manager ++ " 0.1.0\n"

/-- Usages filled up to one width, each with what it is for. -/
def aligned (rows : List (String × String)) : String :=
  let width := (rows.map (·.1.length)).foldl max 0
  String.join (rows.map fun (usage, description) =>
    "  " ++ usage ++ String.ofList (List.replicate (width - usage.length) ' ') ++ "  "
      ++ description ++ "\n")

def flagUsage (f : Flag) : String :=
  match f.letter? with
  | some c => String.ofList ['-', c, ',', ' '] ++ f.usage
  | none => f.usage

def helpText : String :=
  Naming.manager ++ " - converges devicechain instances, tenants and microservices\n\n"
    ++ "Usage: " ++ Naming.manager ++ " [OPTIONS]\n\nOptions:\n"
    ++ aligned (Flag.all.map (fun f => (flagUsage f, f.description)) ++
      Parameter.all.map fun p => (p.usage, p.description ++ " [env: " ++ p.variableName ++ "]"))

/-- A filter of the environment is taken if it is one, else that of the options. One that is torn
is not passed over. -/
def filterFault? (env : String → Option String) (o : Options) : Option Filter.Fault :=
  match env "RUST_LOG" with
  | some s =>
    match Filter.fault? s with
    | none => none
    | some .torn => some .torn
    | some _ => ofOptions
  | none => ofOptions
where
  ofOptions : Option Filter.Fault := Filter.fault? (o.logFilter.getD Filter.default)

/-- A run that can neither go on nor say what is wrong with its input. -/
def broken (message : String) : Report := { status := 101, err := "\n" ++ message ++ "\n" }

def running (env : String → Option String) (o : Options) : Plan :=
  if o.crd then .finish { out := Manifest.definitionText }
  else
    match filterFault? env o with
    | some .torn => .finish (broken Filter.Fault.torn.message)
    | some f => .finish (failed ("invalid log filter: " ++ f.message))
    | none => connecting env o

def plan (env : String → Option String) (arguments : List String) : Plan :=
  match Intent.ofArguments env arguments with
  | .error e => .finish (misused e)
  | .ok .help => .finish { out := helpText }
  | .ok .version => .finish { out := versionText }
  | .ok (.run o) => running env o

end Command
end TenantOperator
