import TenantOperator.Command.Parameter
import TenantOperator.Naming
import TenantOperator.Schedule.Backoff
import TenantOperator.Settings

/-! Options of the command: what was given, and the defaults for the rest. -/
namespace TenantOperator
namespace Command

abbrev Values := (p : Parameter) → Option p.Value

namespace Values

def none : Values := fun _ => .none

def set (v : Values) (p : Parameter) (a : p.Value) : Values := fun q =>
  if h : p = q then some (h ▸ a) else v q

/-- The environment, variable by variable, for what was not given as an argument. -/
def withEnvironment (env : String → Option String) (v : Values) : Except UsageError Values :=
  Parameter.all.foldlM (fun v p =>
    match v p, env p.variableName with
    | .none, some s => (p.read s).map (v.set p)
    | _, _ => .ok v) v

end Values

structure Options where
  /-- Print the definitions of the declared kinds and do nothing else. -/
  crd : Bool := false
  kubeconfig : Option String := none
  logFormat : LogFormat := .json
  logFilter : Option String := none
  retryInitialMs : Nat := 500
  retryMaxSecs : Nat := 60
  retryMaxAttempts : Nat := 0
  maxConflictRetries : Nat := ({} : Settings).maxConflictRetries
  ingressClass : Option String := none
  fieldManager : String := Naming.manager
  deriving DecidableEq

namespace Options

def ofValues (crd : Bool) (v : Values) : Options :=
  let defaults : Options := {}
  { crd
    kubeconfig := v .kubeconfig
    logFormat := (v .logFormat).getD defaults.logFormat
    logFilter := v .logFilter
    retryInitialMs := (v .retryInitialMs).getD defaults.retryInitialMs
    retryMaxSecs := (v .retryMaxSecs).getD defaults.retryMaxSecs
    retryMaxAttempts := (v .retryMaxAttempts).getD defaults.retryMaxAttempts
    maxConflictRetries := (v .maxConflictRetries).getD defaults.maxConflictRetries
    ingressClass := v .ingressClass
    fieldManager := (v .fieldManager).getD defaults.fieldManager }

/-- An empty class is none. -/
def settings (o : Options) : Settings where
  ingressClass := o.ingressClass.filter (!·.isEmpty)
  maxConflictRetries := o.maxConflictRetries

def retry (o : Options) : RetryConfig where
  maxAttempts := o.retryMaxAttempts
  initialDelay := o.retryInitialMs
  maxDelay := o.retryMaxSecs * 1000

end Options
end Command
end TenantOperator
