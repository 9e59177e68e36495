/-! Base64 with padding: which texts are the one way to write some bytes, and what is wrong with any
other text. -/
namespace TenantOperator
namespace Text
namespace Base64

inductive Fault where
  | symbol (byte offset : Nat)
  | length (n : Nat)
  /-- Bits are set that belong to no byte. -/
  | lastSymbol (byte offset : Nat)
  | padding
  deriving DecidableEq

def Fault.message : Fault → String
  | symbol b i => "Invalid symbol " ++ toString b ++ ", offset " ++ toString i ++ "."
  | length n => "Invalid input length: " ++ toString n
  | lastSymbol b i => "Invalid last symbol " ++ toString b ++ ", offset " ++ toString i ++ "."
  | padding => "Invalid padding"

def pad : Nat := '='.toNat

def value? (b : Nat) : Option Nat :=
  if 'A'.toNat ≤ b && b ≤ 'Z'.toNat then some (b - 'A'.toNat)
  else if 'a'.toNat ≤ b && b ≤ 'z'.toNat then some (b - 'a'.toNat + 26)
  else if '0'.toNat ≤ b && b ≤ '9'.toNat then some (b - '0'.toNat + 52)
  else if b = '+'.toNat then some 62
  else if b = '/'.toNat then some 63
  else none

/-- The first byte that is no symbol, counted from `offset`. -/
def symbols (offset : Nat) : List Nat → Option Fault
  | [] => none
  | b :: l => if (value? b).isNone then some (.symbol b offset) else symbols (offset + 1) l

/-- The last group is complete, and no bit of its last symbol is lost. -/
def groupEnd (offset : Nat) (symbols : List Nat) (pads : Nat) : Option Fault :=
  let n := symbols.length
  let last := symbols.getLastD 0
  let lost := match n with
    | 2 => 16
    | 3 => 4
    | _ => 1
  if n < 2 then some (.length (offset + n))
  else if (n + pads) % 4 ≠ 0 then some .padding
  else if (value? last).getD 0 % lost ≠ 0 then some (.lastSymbol last (offset + n - 1))
  else none

/-- Goes on in the last group, after some symbols and the padding behind them. -/
def group (offset : Nat) (symbols : List Nat) (pads : Nat) : List Nat → Option Fault
  | [] => groupEnd offset symbols pads
  | b :: l =>
    let i := offset + symbols.length
    if b = pad then
      if symbols.length + pads < 2 then some (.symbol b (i + pads))
      else group offset symbols (pads + 1) l
    else if 0 < pads then some (.symbol pad i)
    else if (value? b).isNone then some (.symbol b i)
    else group offset (symbols ++ [b]) 0 l

/-- What is wrong with a text, given by its bytes. A byte too many is named first. -/
def fault? (l : List Nat) : Option Fault :=
  let n := l.length
  let last := l.getLastD pad
  if n = 0 then none
  else if n % 4 = 1 && last ≠ pad && (value? last).isNone then some (.symbol last (n - 1))
  else
    let whole := (n - 1) / 4 * 4
    (symbols 0 (l.take whole)).or (group whole [] 0 (l.drop whole))

example : ["", "Zg==", "Zm8=", "Zm9v"].map (fun s => fault? (s.toList.map Char.toNat)) =
    List.replicate 4 none := by decide +kernel
example : ["Z", "Zm8", "Zh==", "Z=", "Zg==Zg==", "Zm9v\n"].map
    (fun s => fault? (s.toList.map Char.toNat)) =
    [some (.length 1), some .padding, some (.lastSymbol 104 1), some (.symbol 61 1),
     some (.symbol 61 2), some (.symbol 10 4)] := by decide +kernel

end Base64
end Text
end TenantOperator
