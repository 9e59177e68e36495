import TenantOperator.Decimal.Whole
import TenantOperator.Cluster.Query
import TenantOperator.Text.Hex

/-! Addresses of servers and of what is on them: which characters they may hold, and what is wrong
with the address of a server that is known by its host and port. -/
namespace TenantOperator
namespace Cluster
namespace Address

inductive Fault where
  | badCharacter
  | badAuthority
  | badFormat
  | tooLong
  deriving DecidableEq

def Fault.message : Fault → String
  | badCharacter => "invalid uri character"
  | badAuthority => "invalid authority"
  | badFormat => "invalid format"
  | tooLong => "uri too long"

def maxLength : Nat := UInt16.size - 2

def isPathChar (c : Char) : Bool :=
  let n := c.toNat
  n = 0x21 || n = 0x22 || (0x24 ≤ n && n ≤ 0x3B) || n = 0x3D || (0x40 ≤ n && n ≤ 0x5F)
    || (0x61 ≤ n && n ≤ 0x7E) || 0x80 ≤ n

def isQueryChar (c : Char) : Bool :=
  let n := c.toNat
  n = 0x21 || (0x24 ≤ n && n ≤ 0x3B) || n = 0x3D || (0x3F ≤ n && n ≤ 0x7E) || 0x80 ≤ n

/-- A text that begins with a path: the path, what follows a question mark, and whether a hash sign
cuts it off. -/
structure Target where
  path : List Char
  query : Option (List Char)
  isCut : Bool
  deriving DecidableEq

def Target.ofText (s : String) : Target :=
  let (text, fragment) := Query.splitAt '#' s.toList
  let (path, query) := Query.splitAt '?' text
  ⟨path, query, fragment.isSome⟩

def Target.isValid (t : Target) : Bool :=
  t.path.all isPathChar && (t.query.getD []).all isQueryChar

def isAuthorityChar (c : Char) : Bool :=
  c.isAlphanum || "!$&'()*+,-.:;=@[]_~".toList.contains c

structure Authority where
  colons : Nat := 0
  opened : Bool := false
  closed : Bool := false
  hasPercent : Bool := false
  /-- Whether the last character was an at sign. -/
  isOpenEnded : Bool := false

/-- Colons and percent signs count only behind user and password, and outside of brackets. -/
def Authority.next (a : Authority) (c : Char) : Except Fault Authority :=
  let a := { a with isOpenEnded := c = '@' }
  if c = ':' then
    if a.colons ≥ 8 then .error .badAuthority else .ok { a with colons := a.colons + 1 }
  else if c = '[' then
    if a.hasPercent || a.opened then .error .badAuthority else .ok { a with opened := true }
  else if c = ']' then
    if !a.opened || a.closed then .error .badAuthority
    else .ok { a with closed := true, colons := 0, hasPercent := false }
  else if c = '@' then .ok { a with colons := 0, hasPercent := false }
  else if c = '%' then .ok { a with hasPercent := true }
  else if isAuthorityChar c then .ok a
  else .error .badCharacter

def Authority.isComplete (a : Authority) : Bool :=
  a.opened = a.closed && a.colons ≤ 1 && !a.isOpenEnded && !a.hasPercent

def fault? (s : String) : Option Fault :=
  let endsAuthority (c : Char) : Bool := c = '/' || c = '?' || c = '#'
  let authority := s.toList.takeWhile (!endsAuthority ·)
  let rest := s.toList.dropWhile (!endsAuthority ·)
  match authority.foldlM Authority.next {} with
  | .error e => some e
  | .ok a =>
    if !a.isComplete then some .badAuthority
    else if authority.isEmpty then some .badFormat
    else if (Target.ofText (String.ofList rest)).isValid then none
    else some .badCharacter

/-- Four numbers up to 255 without leading zeros, between points. -/
def isDotted (l : List Char) : Bool :=
  let parts := l.splitOn '.'
  parts.length = 4 && parts.all fun p =>
    p.length ≤ 3 && p.all Char.isDigit && (p.head? ≠ some '0' || p.length = 1)
      && (Decimal.natural 255 (String.ofList p)).toBool

def isGroup (p : List Char) : Bool :=
  1 ≤ p.length && p.length ≤ 4 && p.all fun c => (Text.hexDigit? c).isSome

/-- Sixteen-bit groups in `parts`, the last one of which may be two of them with points; `none` if
some part is neither. -/
def groups? : List (List Char) → Option Nat
  | [] => some 0
  | [p] => if isGroup p then some 1 else if isDotted p then some 2 else none
  | p :: ps => if isGroup p then (groups? ps).map (· + 1) else none

/-- The list cut at the first two colons in a row. -/
def atGap : List Char → Option (List Char × List Char)
  | ':' :: ':' :: l => some ([], l)
  | c :: l => (atGap l).map fun (a, b) => (c :: a, b)
  | [] => none

def isGrouped (l : List Char) : Bool :=
  let count (l : List Char) : Option Nat := if l.isEmpty then some 0 else groups? (l.splitOn ':')
  match atGap l with
  | none => count l = some 8
  | some (front, back) =>
    match count front, count back with
    | some m, some n => m + n ≤ 7 && !front.contains '.'
    | _, _ => false

/-- What is wrong with the address of a server. The port is left out where it is the usual one. -/
def serverFault? (host : String) (port : Nat) : Option Fault :=
  if isGrouped host.toList then none
  else
    let s := if port = 443 then host else host ++ ":" ++ toString port
    if "https://".utf8ByteSize + s.utf8ByteSize > maxLength then some .tooLong else fault? s

example : serverFault? "::ffff:1.2.3.4" 6443 = none := by decide +kernel
example : serverFault? "fe80::1::2" 443 = some .badAuthority := by decide +kernel
example : serverFault? "a b" 443 = some .badCharacter := by decide +kernel
example : serverFault? "" 443 = some .badFormat := by decide +kernel
example : serverFault? "h:1" 80 = some .badAuthority := by decide +kernel

end Address
end Cluster
end TenantOperator
