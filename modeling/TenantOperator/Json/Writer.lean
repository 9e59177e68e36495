import TenantOperator.Json.Basic

/-! The compact text of a document: no blanks, fields in the order the document has them. In
strings only the quote, the backslash and the control characters below U+0020 are escaped. -/
namespace TenantOperator
namespace Json

def hexByte (n : Nat) : List Char := [Nat.digitChar (n / 16 % 16), Nat.digitChar (n % 16)]

def escaped (c : Char) : List Char :=
  if c = '"' then ['\\', '"']
  else if c = '\\' then ['\\', '\\']
  else if c = '\x08' then ['\\', 'b']
  else if c = '\x0c' then ['\\', 'f']
  else if c = '\n' then ['\\', 'n']
  else if c = '\r' then ['\\', 'r']
  else if c = '\t' then ['\\', 't']
  else if c.toNat < 0x20 then ['\\', 'u', '0', '0'] ++ hexByte c.toNat
  else [c]

def quoted (s : String) : List Char := '"' :: (s.toList.flatMap escaped ++ ['"'])

mutual
def chars : Json → List Char
  | .null => ['n', 'u', 'l', 'l']
  | .bool true => ['t', 'r', 'u', 'e']
  | .bool false => ['f', 'a', 'l', 's', 'e']
  | .int n => (toString n).toList
  | .double x => (doubles.text x).toList
  | .str s => quoted s
  | .arr [] => ['[', ']']
  | .arr (j :: items) => '[' :: (chars j ++ itemChars items)
  | .obj [] => ['\x7b', '\x7d']
  | .obj ((k, j) :: fields) => '\x7b' :: (quoted k ++ ':' :: (chars j ++ fieldChars fields))

/-- The items after the first one, with the closing bracket. -/
def itemChars : List Json → List Char
  | [] => [']']
  | j :: items => ',' :: (chars j ++ itemChars items)

/-- The fields after the first one, with the closing brace. -/
def fieldChars : List (String × Json) → List Char
  | [] => ['\x7d']
  | (k, j) :: fields => ',' :: (quoted k ++ ':' :: (chars j ++ fieldChars fields))
end

def text (j : Json) : String := String.ofList j.chars

end Json
end TenantOperator
