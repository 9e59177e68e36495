import TenantOperator.Command.Run

/-! The command: carries out a plan on the machine it runs on. -/
namespace TenantOperator
namespace Command

/-- Some layers negate the number of an error. -/
def errorNumber (code : UInt32) : Nat :=
  if code.toNat < Nat.pow 2 31 then code.toNat else UInt32.size - code.toNat

def ReadFault.ofError : IO.Error → ReadFault
  | .noFileOrDirectory _ code _ => ⟨"No such file or directory", errorNumber code⟩
  | .permissionDenied _ code details => ⟨details.capitalize, errorNumber code⟩
  | .inappropriateType _ code details => ⟨details.capitalize, errorNumber code⟩
  | e => ⟨toString e, 5⟩

def Plan.perform : Plan → IO UInt32
  | .finish r => do
    (← IO.getStdout).putStr r.out
    (← IO.getStderr).putStr r.err
    return r.status.toUInt32
  | .connect _ => do
    (← IO.getStderr).putStr (failed "no transport to a cluster is built in").err
    return 1
  | .consult path next => do
    let content ← try Except.ok <$> IO.FS.readFile path catch e => pure (.error e)
    (next (content.mapError ReadFault.ofError)).perform

def variableNames : List String :=
  ["RUST_LOG", "KUBECONFIG", "HOME", "KUBERNETES_SERVICE_HOST", "KUBERNETES_SERVICE_PORT"]
    ++ Parameter.all.map Parameter.variableName

def execute (arguments : List String) : IO UInt32 := do
  let given ← variableNames.mapM fun name => return (name, ← IO.getEnv name)
  (plan (fun name => (given.lookup name).join) arguments).perform

end Command
end TenantOperator

def main (arguments : List String) : IO UInt32 := TenantOperator.Command.execute arguments
