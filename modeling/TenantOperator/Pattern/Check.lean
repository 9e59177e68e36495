import TenantOperator.Pattern.Class
import TenantOperator.Pattern.Group

/-! Which texts are patterns that a table of states can match. A pattern must be well-formed and
must not ask where a word of Unicode begins or ends. -/
namespace TenantOperator
namespace Pattern

inductive Fault where
  | malformed
  | boundary
  deriving DecidableEq

def Fault.message : Fault → String
  | malformed => "error building NFA"
  | boundary =>
    "unsupported regex feature for DFAs: cannot build DFAs for regexes with Unicode word "
      ++ "boundaries; switch to ASCII word boundaries, or heuristically enable Unicode word "
      ++ "boundaries or use a different regex engine"

def maxDepth : Nat := 250

structure Items where
  count : Nat := 0
  depth : Nat := 0
  /-- Nesting of the last item, if it can be repeated. -/
  last : Option Nat := none
  deriving DecidableEq

namespace Items

def add (s : Items) (depth : Nat) : Items where
  count := s.count + 1
  depth := max s.depth depth
  last := some depth

/-- A change of the mode is an item that cannot be repeated. -/
def addMode (s : Items) : Items := { s with count := s.count + 1, last := none }

def repeatLast? (s : Items) : Option Items :=
  s.last.map fun d => { s with depth := max s.depth (d + 1), last := some (d + 1) }

end Items

/-- The pattern or a group of it, as far as it has been read. -/
structure Level where
  /-- Nesting of the alternatives before the last one, if there are any. -/
  alternatives : Option Nat := none
  items : Items := {}
  /-- The mode that holds again behind the group. -/
  outside : Mode := {}
  deriving DecidableEq

namespace Level

def deepest (s : Level) : Nat :=
  max (s.alternatives.getD 0) (joined s.items.count s.items.depth)

def alternate (s : Level) : Level := { s with alternatives := some s.deepest, items := {} }

def total (s : Level) : Nat := if s.alternatives.isSome then s.deepest + 1 else s.deepest

end Level

structure State where
  mode : Mode := {}
  level : Level := {}
  outer : List Level := []
  names : List String := []
  hasBoundary : Bool := false
  deriving DecidableEq

namespace State

def add (s : State) (depth : Nat) : State :=
  { s with level := { s.level with items := s.level.items.add depth } }

def addAtom (s : State) (a : Atom) : State :=
  { s.add 0 with hasBoundary := s.hasBoundary || (a = .boundary && s.mode.unicode) }

/-- No two groups may have the same name. -/
def begin? (s : State) : Opening → Option State
  | .mode m =>
    some { s with mode := m, level := { s.level with items := s.level.items.addMode } }
  | .group inside name =>
    if name.any s.names.contains then none
    else some { s with
      mode := inside
      level := { outside := s.mode }
      outer := s.level :: s.outer
      names := s.names ++ name.toList }

def close? (s : State) : Option State :=
  match s.outer with
  | [] => none
  | t :: outer =>
    some { s with
      mode := s.level.outside
      level := { t with items := t.items.add (s.level.total + 1) }
      outer }

def repeatLast? (s : State) : Option State :=
  s.level.items.repeatLast?.map fun items => { s with level := { s.level with items } }

end State

/-- A question mark behind a repetition belongs to it. -/
def afterRepetition : List Char → List Char
  | '?' :: l => l
  | l => l

/-- Patterns hold no closing brace, so a brace would begin a count that has no end. A point stands
for all characters, not for bytes. -/
def step (s : State) (l : List Char) : Option (Step State State) :=
  match s.mode.skip l with
  | [] => if s.outer.isEmpty then some (.done s []) else none
  | c :: rest =>
    if c = '(' then do
      let (o, rest) ← Opening.read s.mode rest
      return .more (← s.begin? o) rest
    else if c = ')' then s.close?.map (.more · rest)
    else if c = '|' then some (.more { s with level := s.level.alternate } rest)
    else if c = '[' then (Class.read s.mode rest).map fun (d, rest) => .more (s.add d) rest
    else if c = '?' || c = '*' || c = '+' then
      s.repeatLast?.map (.more · (afterRepetition rest))
    else if c = '\x7b' then none
    else if c = '\\' then
      (Escape.read s.mode rest).map fun (a, rest) => .more (s.addAtom a) rest
    else if c = '.' && !s.mode.unicode then none
    else some (.more (s.add 0) rest)

def fault? (s : String) : Option Fault :=
  match scan step {} s.toList with
  | none => some .malformed
  | some (t, _) =>
    if maxDepth < t.level.total then some .malformed
    else if t.hasBoundary then some .boundary
    else none

example : ["a**", "(?P<n>a)", "[]a]", "a|", "()", "(?x) [ a - # c\n z ]", "[a&&[^b]]"].map fault? =
    List.replicate 7 none := by decide +kernel

example : ["(", "[", "*", "\\", "[z-a]", "a)", "(?)", "(?i)*", "(?P<a>)(?<a>)", "[^", "(?-u).",
    "\\x\x7b"].map fault? = List.replicate 12 (some .malformed) := by decide +kernel

example : ["\\bx", "(?-u)\\b", "(?-u:\\b)\\<", "(\\b"].map fault? =
    [some .boundary, none, some .boundary, some .malformed] := by decide +kernel

end Pattern
end TenantOperator
