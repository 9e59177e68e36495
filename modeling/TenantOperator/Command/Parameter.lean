import TenantOperator.Decimal.Whole
import TenantOperator.Text.Plain

/-! Parameters of the command. Each can be given as an argument or by a variable of the environment,
and has values of a type of its own. -/
namespace TenantOperator
namespace Command
open Decimal (WholeFault)

inductive LogFormat where
  /-- One document a line. -/
  | json
  /-- Lines to be read by people. -/
  | pretty
  deriving DecidableEq

def LogFormat.all : List LogFormat := [json, pretty]

def LogFormat.name : LogFormat → String
  | json => "json"
  | pretty => "pretty"

/-- In the order in which the environment is looked at. -/
inductive Parameter where
  | kubeconfig
  | logFormat
  | logFilter
  | retryInitialMs
  | retryMaxSecs
  | retryMaxAttempts
  | maxConflictRetries
  | ingressClass
  | fieldManager
  deriving DecidableEq

namespace Parameter

def all : List Parameter :=
  [kubeconfig, logFormat, logFilter, retryInitialMs, retryMaxSecs, retryMaxAttempts,
   maxConflictRetries, ingressClass, fieldManager]

def name : Parameter → String
  | kubeconfig => "kubeconfig"
  | logFormat => "log-format"
  | logFilter => "log-filter"
  | retryInitialMs => "retry-initial-ms"
  | retryMaxSecs => "retry-max-secs"
  | retryMaxAttempts => "retry-max-attempts"
  | maxConflictRetries => "max-conflict-retries"
  | ingressClass => "ingress-class"
  | fieldManager => "field-manager"

def ofName? (s : String) : Option Parameter := all.find? (·.name = s)

def placeholder (p : Parameter) : String := p.name.map fun c => if c = '-' then '_' else c.toUpper

def variableName (p : Parameter) : String := "DC_" ++ p.placeholder

def usage (p : Parameter) : String := "--" ++ p.name ++ " <" ++ p.placeholder ++ ">"

def description : Parameter → String
  | kubeconfig => "Path to a kubeconfig file; in-cluster or default config when unset"
  | logFormat => "Log output format"
  | logFilter => "Log filter directives, used when RUST_LOG is unset"
  | retryInitialMs => "Initial delay before retrying a failed reconcile, in milliseconds"
  | retryMaxSecs => "Maximum delay between reconcile retries, in seconds"
  | retryMaxAttempts => "Attempts per reconcile request before it is abandoned (0 = unlimited)"
  | maxConflictRetries => "How often a conflicting bundle or routing write is re-read and reapplied"
  | ingressClass => "ingressClassName set on tenant routing tables"
  | fieldManager => "Field manager recorded on every write"

abbrev Value : Parameter → Type
  | kubeconfig | logFilter | ingressClass | fieldManager => String
  | logFormat => LogFormat
  | retryInitialMs | retryMaxSecs | retryMaxAttempts | maxConflictRetries => Nat

end Parameter

inductive Flag where
  | crd | help | version
  deriving DecidableEq

namespace Flag

def all : List Flag := [crd, help, version]

def name : Flag → String
  | crd => "crd"
  | help => "help"
  | version => "version"

def ofName? (s : String) : Option Flag := all.find? (·.name = s)

def letter? : Flag → Option Char
  | crd => none
  | help => some 'h'
  | version => some 'V'

def ofLetter? (c : Char) : Option Flag := all.find? (·.letter? = some c)

def usage (f : Flag) : String := "--" ++ f.name

def description : Flag → String
  | crd => "Print the CRD manifests and exit"
  | help => "Print help"
  | version => "Print version"

end Flag

inductive UsageError where
  | unknownArgument (argument : String)
  | missingValue (p : Parameter)
  | noChoice (p : Parameter) (value : String)
  | badNumber (p : Parameter) (value : String) (fault : WholeFault)
  | repeated (usage : String)
  | unexpectedValue (f : Flag) (value : String)
  deriving DecidableEq

/-- What was given is shown without anything that steers a terminal. -/
def UsageError.message : UsageError → String
  | .unknownArgument a => "unexpected argument '" ++ Text.plain a ++ "' found"
  | .missingValue p => "a value is required for '" ++ p.usage ++ "' but none was supplied"
  | .noChoice p v => "invalid value '" ++ Text.plain v ++ "' for '" ++ p.usage ++ "'"
  | .badNumber p v fault =>
    "invalid value '" ++ Text.plain v ++ "' for '" ++ p.usage ++ "': " ++ fault.message
  | .repeated usage => "the argument '" ++ usage ++ "' cannot be used multiple times"
  | .unexpectedValue f v =>
    "unexpected value '" ++ Text.plain v ++ "' for '" ++ f.usage
      ++ "' found; no more were expected"

namespace Parameter

/-- Delays have 64 bits, counts have 32. A path cannot be empty, other texts can. -/
def read : (p : Parameter) → String → Except UsageError p.Value
  | kubeconfig, s => if s.isEmpty then .error (.missingValue kubeconfig) else .ok s
  | logFormat, s =>
    match LogFormat.all.find? (·.name = s) with
    | some f => .ok f
    | none => .error (if s.isEmpty then .missingValue logFormat else .noChoice logFormat s)
  | logFilter, s => .ok s
  | retryInitialMs, s =>
    (Decimal.natural (UInt64.size - 1) s).mapError (.badNumber retryInitialMs s)
  | retryMaxSecs, s => (Decimal.natural (UInt64.size - 1) s).mapError (.badNumber retryMaxSecs s)
  | retryMaxAttempts, s =>
    (Decimal.bounded (UInt32.size - 1) s).mapError (.badNumber retryMaxAttempts s)
  | maxConflictRetries, s =>
    (Decimal.bounded (UInt32.size - 1) s).mapError (.badNumber maxConflictRetries s)
  | ingressClass, s => .ok s
  | fieldManager, s => .ok s

end Parameter
end Command
end TenantOperator
