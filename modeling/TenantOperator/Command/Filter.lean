import TenantOperator.Decimal.Literal
import TenantOperator.Decimal.Whole
import TenantOperator.Pattern.Check
import TenantOperator.Text.Utf8

/-! Filters for log lines: directives between commas. A directive names a target, a span with a test
of a field, or both, and may set a level for it; a level alone is for everything. -/
namespace TenantOperator
namespace Command
namespace Filter

inductive Fault where
  | malformed
  | badLevel
  | badField (f : Pattern.Fault)
  /-- A part of a directive would begin or end inside of a character. -/
  | torn
  deriving DecidableEq

def levels : List String := ["off", "error", "warn", "info", "debug", "trace"]

def Fault.message : Fault → String
  | .malformed => "invalid filter directive"
  | .badLevel =>
    "error parsing level filter: expected one of "
      ++ ", ".intercalate (levels.map fun l => "\"" ++ l ++ "\"") ++ ", or a number 0-5"
  | .badField f => "invalid field filter: " ++ f.message
  | .torn => "a part of a filter directive ends inside of a character"

def isLevel (s : String) : Bool :=
  match Decimal.natural (UInt64.size - 1) s with
  | .ok n => n < levels.length
  | .error _ => levels.contains (s.map Char.toLower)

/-- A field is tested for being there, for a number, or for a text that matches a pattern. -/
def fieldFault? (test : String) : Option Fault :=
  if test.isEmpty then some .malformed
  else
    match test.splitOn "=" with
    | _ :: value :: _ =>
      if Decimal.isNumber value then none else (Pattern.fault? value).map .badField
    | _ => none

/-- Where the reader of a directive is, and after how many bytes a part began. -/
inductive Place where
  | start
  | name
  | span (begin : Nat)
  | field (begin : Nat)
  | fieldsEnd
  | spanEnd
  | level (begin : Nat)
  deriving DecidableEq

def beginsName (c : Char) : Bool := c = '-' || c = ':' || c = '_' || Text.isAlphanumeric c

def cut (text : List Nat) (i j : Nat) : Except Fault String :=
  match Text.slice? text i j with
  | some s => .ok s
  | none => .error .torn

/-- Reads one character, the one after `offset` bytes. Parts are cut out of `text`. -/
def step (text : List Nat) (offset : Nat) : Place → Char → Except Fault Place
  | .start, '[' => .ok (.span (offset + 1))
  | .start, c => if beginsName c then .ok .name else .error .malformed
  | .name, '=' => (cut text 0 offset).map fun _ => .level (offset + 1)
  | .name, '[' => (cut text 0 offset).map fun _ => .span (offset + 1)
  | .name, _ => .ok .name
  | .span begin, ']' => (cut text begin offset).map fun _ => .spanEnd
  | .span begin, '\x7b' => (cut text begin offset).map fun _ => .field (offset + 1)
  | .span begin, _ => .ok (.span begin)
  | .field begin, '\x7d' => do
    match fieldFault? (← cut text begin offset) with
    | some f => .error f
    | none => .ok .fieldsEnd
  | .field begin, _ => .ok (.field begin)
  | .fieldsEnd, ']' => .ok .spanEnd
  | .fieldsEnd, _ => .error .malformed
  | .spanEnd, '=' => .ok (.level (offset + 1))
  | .spanEnd, _ => .error .malformed
  | .level begin, _ => .ok (.level begin)

def scan (text : List Nat) (offset : Nat) (p : Place) : List Char → Except Fault Place
  | [] => .ok p
  | c :: l => do scan text (offset + c.utf8Size) (← step text offset p c) l

def trim (l : List Char) : List Char :=
  ((l.dropWhile Text.isBlank).reverse.dropWhile Text.isBlank).reverse

/-- Bytes are counted without the blanks around a directive, but parts are cut out of the text with
them. -/
def check (s : String) : Except Fault Unit := do
  let text := Text.bytes s
  match ← scan text 0 .start (trim s.toList) with
  | .name | .spanEnd => .ok ()
  | .level begin =>
    let level ← cut text begin text.length
    if level.isEmpty || isLevel level then .ok () else .error .badLevel
  | _ => .error .malformed

/-- The fault of the first directive that has one; empty directives are passed over. -/
def fault? (s : String) : Option Fault :=
  (s.splitOn ",").findSome? fun d =>
    if d.isEmpty then none else
      match check d with
      | .error f => some f
      | .ok () => none

example : ["a=info", " a", "[s]=", "é[b]=2"].all (fun s => (check s).isOk) = true := by
  decide +kernel
example : ["a=info ", "  =", "\u3000a=info"].any (fun s => (check s).isOk) = false := by
  decide +kernel

def default : String := "info,dc_operator=debug,kube=info,tower=warn,hyper=warn"

end Filter
end Command
end TenantOperator
