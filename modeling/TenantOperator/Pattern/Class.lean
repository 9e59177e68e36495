import TenantOperator.Pattern.Escape

/-! Sets of characters in brackets, with ranges, sets inside and operators between. -/
namespace TenantOperator
namespace Pattern

/-- Nesting of several things side by side, which count as one more level unless there is only
one. -/
def joined (count depth : Nat) : Nat := if 2 ≤ count then depth + 1 else depth

structure OpenClass where
  /-- Nesting on the left of the last operator, if there is one. -/
  left : Option Nat := none
  count : Nat := 0
  depth : Nat := 0
  deriving DecidableEq

namespace OpenClass

def add (s : OpenClass) (depth : Nat) : OpenClass :=
  { s with count := s.count + 1, depth := max s.depth depth }

def total (s : OpenClass) : Nat :=
  match s.left with
  | none => joined s.count s.depth
  | some d => max d (joined s.count s.depth) + 1

/-- Hyphens in front stand for themselves. -/
def hyphens (m : Mode) (s : OpenClass) (l : List Char) : OpenClass × List Char :=
  match l with
  | '-' :: rest => hyphens m (s.add 0) (m.skip rest)
  | l => (s, l)
termination_by l.length
decreasing_by exact Nat.lt_succ_of_le (m.length_skip_le _)

/-- Begins after the opening bracket. The complement of a set of bytes is no set of characters. A
closing bracket in front stands for itself. -/
def begin? (m : Mode) (l : List Char) : Option (OpenClass × List Char) := do
  let l ← match m.skip l with
    | '^' :: rest => if m.unicode then some (m.skip rest) else none
    | l => some l
  match hyphens m {} l with
  | (s, ']' :: rest) =>
    if s.count = 0 then return (s.add 0, m.skip rest) else return (s, ']' :: rest)
  | r => return r

end OpenClass

namespace Class

/-- A character, or none for one of several. -/
def member (m : Mode) : List Char → Option (Option Char × List Char)
  | [] => none
  | '\\' :: l =>
    match Escape.read m l with
    | some (.char c, rest) => if m.unicode || c.toNat < 0x80 then some (some c, rest) else none
    | some (.oneOf, rest) => some (none, rest)
    | _ => none
  | c :: l => if m.unicode || c.toNat < 0x80 then some (some c, l) else none

/-- Reads a member or a range. A hyphen before a bracket that closes or a hyphen makes no range. -/
def range (m : Mode) (l : List Char) : Option (List Char) := do
  let (a, l) ← member m l
  match m.skip l with
  | '-' :: rest =>
    if m.peek? rest = some ']' || m.peek? rest = some '-' then return '-' :: rest
    match a, ← member m (m.skip rest) with
    | some a, (some b, rest) => if a ≤ b then return rest else none
    | _, _ => none
  | l => return l

def names : List String :=
  ["alnum", "alpha", "ascii", "blank", "cntrl", "digit", "graph", "lower", "print", "punct",
   "space", "upper", "word", "xdigit"]

/-- The class between `[:` and `:]`, if there is one after a bracket: whether it is a complement,
and the text after it. -/
def named? : List Char → Option (Bool × List Char)
  | ':' :: l =>
    let (negated, l) := match l with
      | '^' :: l => (true, l)
      | l => (false, l)
    match l.dropWhile (· ≠ ':') with
    | ':' :: ']' :: rest =>
      if names.contains (String.ofList (l.takeWhile (· ≠ ':'))) then some (negated, rest) else none
    | _ => none
  | _ => none

abbrev State := OpenClass × List OpenClass

def operator (s : State) : State := ({ left := some s.1.total }, s.2)

def step (m : Mode) (s : State) (l : List Char) : Option (Step State Nat) :=
  match m.skip l with
  | [] => none
  | '[' :: rest =>
    match named? rest with
    | some (negated, rest) =>
      if negated && !m.unicode then none else some (.more (s.1.add 0, s.2) rest)
    | none => (OpenClass.begin? m rest).map fun (t, rest) => .more (t, s.1 :: s.2) rest
  | ']' :: rest =>
    match s.2 with
    | [] => some (.done (s.1.total + 1) rest)
    | t :: outer => some (.more (t.add (s.1.total + 1), outer) rest)
  | '&' :: '&' :: rest => some (.more (operator s) rest)
  | '-' :: '-' :: rest => some (.more (operator s) rest)
  | '~' :: '~' :: rest => some (.more (operator s) rest)
  | l => (range m l).map fun rest => .more (s.1.add 0, s.2) rest

/-- Reads a set after its opening bracket: its nesting and the text after it. -/
def read (m : Mode) (l : List Char) : Option (Nat × List Char) := do
  let (s, l) ← OpenClass.begin? m l
  scan (step m) (s, []) l

end Class
end Pattern
end TenantOperator
