import TenantOperator.Command.Options

/-! Reading the arguments of the command, from left to right. A value that stands as an argument of
its own is looked at only when the next parameter or flag is known, or the arguments end: an
argument that has no meaning is reported before it. -/
namespace TenantOperator
namespace Command

inductive Word where
  /-- Whatever follows is no parameter or flag. -/
  | escape
  | long (name : String) (value : Option String)
  | short (letter : Char)
  | plain (text : String)
  deriving DecidableEq

def Word.ofText (s : String) : Word :=
  match s.toList with
  | '-' :: '-' :: [] => .escape
  | '-' :: '-' :: l =>
    let name := String.ofList (l.takeWhile (· ≠ '='))
    match l.dropWhile (· ≠ '=') with
    | _ :: value => .long name (some (String.ofList value))
    | [] => .long name none
  | '-' :: c :: _ => .short c
  | _ => .plain s

inductive Intent where
  | help
  | version
  | run (o : Options)
  deriving DecidableEq

structure Progress where
  crd : Bool := false
  values : Values := .none
  /-- The parameter named last, with the argument taken for its value. -/
  pending : Option (Parameter × Option String) := none

namespace Progress

def accept (s : Progress) (p : Parameter) (value : String) : Except UsageError Progress :=
  if (s.values p).isSome then .error (.repeated p.usage)
  else do return { s with values := s.values.set p (← p.read value), pending := none }

/-- Nothing more can come for the parameter named last. -/
def settle (s : Progress) : Except UsageError Progress :=
  match s.pending with
  | none => .ok s
  | some (p, none) => .error (.missingValue p)
  | some (p, some value) => s.accept p value

def finish (env : String → Option String) (s : Progress) : Except UsageError Intent := do
  let s ← s.settle
  return .run (.ofValues s.crd (← s.values.withEnvironment env))

end Progress

/-- Reads the arguments that are left. Help and version end the reading. -/
def readArguments (env : String → Option String) (s : Progress) :
    List String → Except UsageError Intent
  | [] => s.finish env
  | a :: rest =>
    match Word.ofText a with
    | .escape =>
      match rest with
      | [] => s.finish env
      | b :: _ => .error (.unknownArgument b)
    | .plain text =>
      match s.pending with
      | some (p, none) => readArguments env { s with pending := some (p, some text) } rest
      | _ => .error (.unknownArgument text)
    | .short c =>
      match Flag.ofLetter? c with
      | some .version => do let _ ← s.settle; return .version
      | some _ => do let _ ← s.settle; return .help
      | none => .error (.unknownArgument (String.ofList ['-', c]))
    | .long name value =>
      match Parameter.ofName? name, Flag.ofName? name, value with
      | some p, _, some value => do
        let s ← s.settle
        readArguments env (← s.accept p value) rest
      | some p, _, none => do
        let s ← s.settle
        readArguments env { s with pending := some (p, none) } rest
      | none, some f, some value => .error (.unexpectedValue f value)
      | none, some .help, none => do let _ ← s.settle; return .help
      | none, some .version, none => do let _ ← s.settle; return .version
      | none, some .crd, none => do
        let s ← s.settle
        if s.crd then .error (.repeated Flag.crd.usage)
        else readArguments env { s with crd := true } rest
      | none, none, _ => .error (.unknownArgument ("--" ++ name))

def Intent.ofArguments (env : String → Option String) (arguments : List String) :
    Except UsageError Intent := readArguments env {} arguments

end Command
end TenantOperator
