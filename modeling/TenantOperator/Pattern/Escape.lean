import TenantOperator.Pattern.Mode
import TenantOperator.Text.Hex

/-! Escapes of patterns: what a backslash makes of the characters after it. -/
namespace TenantOperator
namespace Pattern

/-- What a single part of a pattern stands for. -/
inductive Atom where
  | char (c : Char)
  /-- Any of the characters of a class. -/
  | oneOf
  /-- An end of the text. -/
  | edge
  /-- A place where a word begins or ends, or does not. -/
  | boundary
  deriving DecidableEq

namespace Escape

def width? : Char → Option Nat
  | 'x' => some 2
  | 'u' => some 4
  | 'U' => some 8
  | _ => none

def digits (m : Mode) : Nat → Nat → List Char → Option (Nat × List Char)
  | 0, v, l => some (v, l)
  | _ + 1, _, [] => none
  | n + 1, v, c :: l => do digits m n (16 * v + (← Text.hexDigit? c)) (m.skip l)

def control? : Char → Option Char
  | 'a' => some '\x07'
  | 'f' => some '\x0c'
  | 'n' => some '\n'
  | 'r' => some '\r'
  | 't' => some '\t'
  | 'v' => some '\x0b'
  | _ => none

/-- Letters of the general categories, in either case. -/
def isCategory (c : Char) : Bool := "clmnpsz".toList.contains c.toLower

/-- Every sign of ASCII can be escaped, beside two that are boundaries. -/
def isSign (c : Char) : Bool := c.toNat < 0x80 && !c.isAlphanum

/-- Reads what follows a backslash. A byte beyond ASCII, and every class that holds such bytes, is
no text and is refused. -/
def read (m : Mode) : List Char → Option (Atom × List Char)
  | [] => none
  | c :: l =>
    match width? c, control? c with
    | some n, _ => do
      let (v, rest) ← digits m n 0 (m.skip l)
      if v.isValidChar && (m.unicode || n ≠ 2 || v < 0x80) then some (.char (Char.ofNat v), rest)
      else none
    | none, some d => some (.char d, l)
    | none, none =>
      if c = 'p' || c = 'P' then
        match m.skip l with
        | k :: rest => if m.unicode && isCategory k then some (.oneOf, m.skip rest) else none
        | [] => none
      else if c = 'd' || c = 's' || c = 'w' then some (.oneOf, l)
      else if c = 'D' || c = 'S' || c = 'W' then if m.unicode then some (.oneOf, l) else none
      else if c = 'A' || c = 'z' then some (.edge, l)
      else if c = 'b' || c = 'B' || c = '<' || c = '>' then some (.boundary, l)
      else if isSign c then some (.char c, l)
      else none

end Escape
end Pattern
end TenantOperator
