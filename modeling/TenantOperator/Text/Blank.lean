/-! White space as Unicode's `White_Space` property has it, and texts that hold nothing else. -/
namespace TenantOperator
namespace Text

/-- Ranges of the property, both ends included. -/
def blankRanges : List (Nat × Nat) :=
  [(0x09, 0x0D), (0x20, 0x20), (0x85, 0x85), (0xA0, 0xA0), (0x1680, 0x1680), (0x2000, 0x200A),
   (0x2028, 0x2029), (0x202F, 0x202F), (0x205F, 0x205F), (0x3000, 0x3000)]

def isBlank (c : Char) : Bool := blankRanges.any fun r => r.1 ≤ c.toNat && c.toNat ≤ r.2

def allBlank (s : String) : Bool := s.toList.all isBlank

end Text
end TenantOperator
