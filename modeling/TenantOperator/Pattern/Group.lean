import TenantOperator.Pattern.Mode
import TenantOperator.Text.Letter

/-! What an opening parenthesis begins: a group, with a name or without, or a change of the mode. -/
namespace TenantOperator
namespace Pattern

inductive Opening where
  | mode (m : Mode)
  | group (inside : Mode) (name : Option String)
  deriving DecidableEq

namespace Opening

def startsName (c : Char) : Bool := c = '_' || Text.isAlphabetic c

def continuesName (c : Char) : Bool :=
  c = '_' || c = '.' || c = '[' || c = ']' || Text.isAlphanumeric c

def isName : List Char → Bool
  | [] => false
  | c :: l => startsName c && l.all continuesName

/-- Letters of flags, and the sign behind which they are taken away. -/
def flagSigns : List Char := "imsUuRx-".toList

/-- No sign may stand twice, and the last one may not be a hyphen. -/
def areFlags (l : List Char) : Bool :=
  l.all flagSigns.contains && l.eraseDups.length = l.length && l.getLast? ≠ some '-'

def setting? (l : List Char) (flag : Char) : Option Bool :=
  if (l.takeWhile (· ≠ '-')).contains flag then some true
  else if l.contains flag then some false
  else none

def withFlags (m : Mode) (l : List Char) : Mode where
  spaced := (setting? l 'x').getD m.spaced
  unicode := (setting? l 'u').getD m.unicode

def named (m : Mode) (l : List Char) : Option (Opening × List Char) :=
  let name := l.takeWhile (· ≠ '>')
  match l.dropWhile (· ≠ '>') with
  | _ :: rest => if isName name then some (.group m (some (String.ofList name)), rest) else none
  | [] => none

/-- Reads what follows an opening parenthesis. A change of the mode has to name a flag. -/
def read (m : Mode) (l : List Char) : Option (Opening × List Char) :=
  match m.skip l with
  | '?' :: 'P' :: '<' :: rest => named m rest
  | '?' :: '<' :: rest => named m rest
  | '?' :: rest =>
    let endsFlags (c : Char) : Bool := c = ':' || c = ')'
    let flags := rest.takeWhile (!endsFlags ·)
    if !areFlags flags then none
    else
      match rest.dropWhile (!endsFlags ·) with
      | ':' :: rest => some (.group (withFlags m flags) none, rest)
      | ')' :: rest => if flags.isEmpty then none else some (.mode (withFlags m flags), rest)
      | _ => none
  | l => some (.group m none, l)

end Opening
end Pattern
end TenantOperator
