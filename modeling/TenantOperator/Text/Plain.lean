import TenantOperator.Text.Utf8

/-! Texts with nothing in them that steers a terminal: control characters and control sequences are
left out, blanks and the ends of lines stay. -/
namespace TenantOperator
namespace Text

inductive Sequence where
  | none
  | escape
  | intermediate
  | parameters
  | command
  | string
  deriving DecidableEq

namespace Sequence

def isLayout (c : Char) : Bool := c = '\t' || c = '\n' || c = '\x0c' || c = '\r'

def isCancel (c : Char) : Bool := c = '\x18' || c = '\x1a'

/-- The sequence that a character after an escape begins, or none if it is a whole one. -/
def opened (c : Char) : Sequence :=
  if c = '[' then .parameters
  else if c = ']' then .command
  else if c = 'P' || c = 'X' || c = '^' || c = '_' then .string
  else if ' ' ≤ c && c ≤ '/' then .intermediate
  else if '0' ≤ c && c ≤ '~' then .none
  else .escape

/-- What shows of a character in a sequence, and the sequence after it. Beyond ASCII a character
breaks a sequence off, and its first byte is lost with it. -/
def step (s : Sequence) (c : Char) : Sequence × List Char :=
  if 0x80 ≤ c.toNat then
    (.none, if s = .none then [c] else List.replicate (c.utf8Size - 1) replacement)
  else if c = '\x1b' then (.escape, [])
  else if isCancel c then (.none, [])
  else
    match s with
    | .none => (.none, if (' ' ≤ c && c ≤ '~') || isLayout c then [c] else [])
    | .command => (if c = '\x07' then .none else .command, [])
    | .string => (.string, [])
    | .escape => if isLayout c then (.none, [c]) else (opened c, [])
    | .intermediate =>
      if isLayout c then (.none, [c])
      else (if '0' ≤ c && c ≤ '~' then .none else .intermediate, [])
    | .parameters =>
      if isLayout c then (.none, [c])
      else (if '@' ≤ c && c ≤ '~' then .none else .parameters, [])

end Sequence

def plainFrom (s : Sequence) : List Char → List Char
  | [] => []
  | c :: l => (s.step c).2 ++ plainFrom (s.step c).1 l

def plain (s : String) : String := String.ofList (plainFrom .none s.toList)

example : plain "a\x1b]0;t\x07b\x1b[31mred\x1b[0m\x07" = "abred" := by decide +kernel
example : plain "\x1b[é1" = "\uFFFD1" := by decide +kernel

end Text
end TenantOperator
