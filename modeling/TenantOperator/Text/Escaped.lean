import TenantOperator.Text.Unseen

/-! Quoted texts as diagnostics show them: quote, backslash and line controls have their short
escapes, a character that shows nothing of its own is written by its hexadecimal number. -/
namespace TenantOperator
namespace Text

def escapeSeen (c : Char) : List Char :=
  if c = '"' then ['\\', '"']
  else if c = '\\' then ['\\', '\\']
  else if c = '\n' then ['\\', 'n']
  else if c = '\r' then ['\\', 'r']
  else if c = '\t' then ['\\', 't']
  else if c = '\x00' then ['\\', '0']
  else if isUnseen c then ['\\', 'u', '\x7b'] ++ Nat.toDigits 16 c.toNat ++ ['\x7d']
  else [c]

def quote (s : String) : String := String.ofList ('"' :: (s.toList.flatMap escapeSeen ++ ['"']))

end Text
end TenantOperator
