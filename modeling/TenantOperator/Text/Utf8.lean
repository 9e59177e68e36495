/-! Texts from bytes. Where bytes are no text, every longest beginning of a character that is cut
off counts as one character that cannot be shown. -/
namespace TenantOperator
namespace Text

def replacement : Char := '\uFFFD'

/-- A character of which some bytes have been read. The next byte must be from `low` to `high`. -/
structure Partial where
  value : Nat
  missing : Nat
  low : Nat := 0x80
  high : Nat := 0xBF
  deriving DecidableEq

namespace Partial

/-- What the first byte of a character leaves to be read. -/
def begin? (b : Nat) : Option Partial :=
  if b < 0x80 then some ⟨b, 0, 0x80, 0xBF⟩
  else if 0xC2 ≤ b && b ≤ 0xDF then some ⟨b - 0xC0, 1, 0x80, 0xBF⟩
  else if b = 0xE0 then some ⟨0, 2, 0xA0, 0xBF⟩
  else if b = 0xED then some ⟨0xD, 2, 0x80, 0x9F⟩
  else if 0xE1 ≤ b && b ≤ 0xEF then some ⟨b - 0xE0, 2, 0x80, 0xBF⟩
  else if b = 0xF0 then some ⟨0, 3, 0x90, 0xBF⟩
  else if b = 0xF4 then some ⟨4, 3, 0x80, 0x8F⟩
  else if 0xF1 ≤ b && b ≤ 0xF3 then some ⟨b - 0xF0, 3, 0x80, 0xBF⟩
  else none

def next (p : Partial) (b : Nat) : Partial := ⟨p.value * 64 + (b - 0x80), p.missing - 1, 0x80, 0xBF⟩

end Partial

def charsFrom (p : Option Partial) : List Nat → List Char
  | [] => if p.isSome then [replacement] else []
  | b :: bs =>
    let start : List Char := match Partial.begin? b with
      | none => replacement :: charsFrom none bs
      | some q => if q.missing = 0 then Char.ofNat q.value :: charsFrom none bs
        else charsFrom (some q) bs
    match p with
    | none => start
    | some p =>
      if p.low ≤ b && b ≤ p.high then
        let q := p.next b
        if q.missing = 0 then Char.ofNat q.value :: charsFrom none bs else charsFrom (some q) bs
      else replacement :: start

def ofBytes (l : List Nat) : String := String.ofList (charsFrom none l)

def bytes (s : String) : List Nat := s.toUTF8.toList.map UInt8.toNat

/-- Whether the byte after `n` others begins a character, or none is left. -/
def isBoundary (l : List Nat) (n : Nat) : Bool := l[n]?.all fun b => b < 0x80 || 0xC0 ≤ b

/-- The text from byte `i` to byte `j`, if neither is inside of a character. -/
def slice? (l : List Nat) (i j : Nat) : Option String :=
  if isBoundary l i && isBoundary l j then some (ofBytes ((l.take j).drop i)) else none

example : ofBytes [0x61, 0xC3, 0xA9, 0xE6, 0x97, 0xA5, 0xF0, 0x9F, 0x98, 0x80] = "aé日😀" := by
  decide +kernel
example : ofBytes [0xF0, 0x9F, 0x61, 0xA9] = "\uFFFDa\uFFFD" := by decide +kernel
example : slice? (bytes "aéb") 1 3 = some "é" ∧ slice? (bytes "aéb") 2 3 = none := by decide +kernel

end Text
end TenantOperator
