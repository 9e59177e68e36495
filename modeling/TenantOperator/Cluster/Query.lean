import TenantOperator.Text.Hex
import TenantOperator.Text.Utf8

/-! Queries of addresses: pairs of names and values as forms send them, a plus sign for a blank and
a percent sign before the number of any other byte. -/
namespace TenantOperator
namespace Cluster
namespace Query

/-- A percent sign without two digits stands for itself. -/
def unescape : List Nat → List Nat
  | [] => []
  | 0x2B :: l => 0x20 :: unescape l
  | 0x25 :: a :: b :: l =>
    match Text.hexDigit? (Char.ofNat a), Text.hexDigit? (Char.ofNat b) with
    | some x, some y => (x * 16 + y) :: unescape l
    | _, _ => 0x25 :: unescape (a :: b :: l)
  | b :: l => b :: unescape l

def splitAt {α : Type} [BEq α] (b : α) (l : List α) : List α × Option (List α) :=
  match l.dropWhile (· != b) with
  | _ :: rest => (l.takeWhile (· != b), some rest)
  | [] => (l, none)

def decodePair (l : List Nat) : String × String :=
  let (name, value) := splitAt 0x3D l
  (Text.ofBytes (unescape name), Text.ofBytes (unescape (value.getD [])))

/-- Pairs of a query; empty ones are passed over. -/
def pairs (query : String) : List (String × String) :=
  (((Text.bytes query).splitOn 0x26).filter (!·.isEmpty)).map decodePair

def insertPair (p : String × String) : List (String × String) → List (String × String)
  | [] => [p]
  | q :: l => if p.1 < q.1 || (p.1 = q.1 && p.2 ≤ q.2) then p :: q :: l else q :: insertPair p l

def ordered (l : List (String × String)) : List (String × String) := l.foldr insertPair []

example : pairs "x=1&&b=c+d%41%4&y?" = [("x", "1"), ("b", "c dA%4"), ("y?", "")] := by
  decide +kernel

end Query
end Cluster
end TenantOperator
