import TenantOperator.Decimal.Binary64

/-! How a text is written as a YAML scalar: plain where nothing in it could be read as something
else, quoted where it could, as a literal block where it has lines. -/
namespace TenantOperator
namespace Yaml

inductive Style where
  | plain | singleQuoted | doubleQuoted | literal
  deriving DecidableEq

def isBreak (c : Char) : Bool :=
  c = '\r' || c = '\n' || c.toNat = 0x85 || c.toNat = 0x2028 || c.toNat = 0x2029

def isPrintable (c : Char) : Bool :=
  let n := c.toNat
  n = 0x0A || (0x20 ≤ n && n ≤ 0x7E) || (0xA0 ≤ n && n ≤ 0xD7FF)
    || (0xE000 ≤ n && n ≤ 0xFFFD && n ≠ 0xFEFF) || 0x10000 ≤ n

/-- What separates tokens; the end of the text does too. -/
def isGap : Option Char → Bool
  | some c => c = ' ' || c = '\t' || c = '\x00' || isBreak c
  | none => true

/-- Characters that mean something of their own at the start of a scalar. -/
def isIndicator (c : Char) : Bool := "#,[]\x7b\x7d&*!|>'\"%@\x60".toList.contains c

/-- Whether some character other than the first starts a comment or ends a key. -/
def breaksLater : Char → List Char → Bool
  | _, [] => false
  | before, c :: rest =>
    (c = ':' && isGap rest.head?) || (c = '#' && isGap (some before)) || breaksLater c rest

/-- Whether a parser in block context would not read the text as one scalar. -/
def hasIndicators : List Char → Bool
  | [] => false
  | c :: rest =>
    isIndicator c || ((c = '?' || c = ':' || c = '-') && isGap rest.head?) || breaksLater c rest
      || ['-', '-', '-'].isPrefixOf (c :: rest) || ['.', '.', '.'].isPrefixOf (c :: rest)

/-- Whether a character of one class is directly followed by one of another. -/
def hasPair (p q : Char → Bool) : List Char → Bool
  | a :: b :: rest => (p a && q b) || hasPair p q (b :: rest)
  | _ => false

def isSpace (c : Char) : Bool := c = ' '

def hasBreak (s : String) : Bool := s.toList.any isBreak

def fitsPlain (s : String) : Bool :=
  let l := s.toList
  let atEdge (c : Option Char) : Bool := c.any fun c => isSpace c || isBreak c
  l.all isPrintable && !l.any isBreak && !atEdge l.head? && !atEdge l.getLast? && !hasIndicators l

def fitsSingleQuoted (s : String) : Bool :=
  let l := s.toList
  l.all isPrintable && !hasPair isBreak isSpace l && !hasPair isSpace isBreak l

def fitsLiteral (s : String) : Bool :=
  let l := s.toList
  !l.isEmpty && l.all isPrintable && !hasPair isSpace isBreak l && !l.getLast?.any isSpace

def words : List String :=
  ["", "null", "Null", "NULL", "~", "true", "True", "TRUE", "false", "False", "FALSE"]

def specialNumbers : List String :=
  [".inf", ".Inf", ".INF", "+.inf", "+.Inf", "+.INF", "-.inf", "-.Inf", "-.INF", ".nan", ".NaN",
   ".NAN"]

def digitValue (c : Char) : Nat :=
  if c.isDigit then c.toNat - '0'.toNat
  else if 'a' ≤ c && c ≤ 'z' then c.toNat - 'a'.toNat + 10
  else if 'A' ≤ c && c ≤ 'Z' then c.toNat - 'A'.toNat + 10
  else 99

def numeral (base : Nat) (ds : List Char) : Nat := ds.foldl (fun n c => n * base + digitValue c) 0

/-- Digits of a base that make a number of at most `limit`. -/
def isNumeral (base limit : Nat) (ds : List Char) : Bool :=
  !ds.isEmpty && ds.all (digitValue · < base) && numeral base ds ≤ limit

/-- Numbers with a base mark, of up to 128 bits. -/
def isBased (limit : Nat) : List Char → Bool
  | '0' :: 'x' :: ds => isNumeral 16 limit ds
  | '0' :: 'o' :: ds => isNumeral 8 limit ds
  | '0' :: 'b' :: ds => isNumeral 2 limit ds
  | _ => false

def isBasedInteger : List Char → Bool
  | '+' :: l => isBased (Nat.pow 2 128 - 1) l
  | '-' :: l => isBased (Nat.pow 2 127) l
  | l => isBased (Nat.pow 2 128 - 1) l

/-- Digits after a leading zero are no number, but look like one. -/
def isPadded (l : List Char) : Bool :=
  let l := match l with
    | '+' :: l => l
    | '-' :: l => l
    | l => l
  match l with
  | '0' :: d :: ds => (d :: ds).all Char.isDigit
  | _ => false

def dropSign : List Char → List Char
  | '+' :: l => l
  | '-' :: l => l
  | l => l

/-- Whether `digits * 10 ^ exponent` rounds to a finite double. -/
def isFiniteDecimal (digits : Nat) (exponent : Int) : Bool :=
  let size : Int := (Nat.toDigits 10 digits).length + exponent
  if digits = 0 || size < 0 then true
  else if size > 310 then false
  else
    (Binary64.ofRatio false (digits * Nat.pow 10 exponent.toNat)
      (Nat.pow 10 (-exponent).toNat)).isFinite

/-- A decimal number without its sign: digits with an optional point among them, and an optional
exponent. -/
def isDecimal (l : List Char) : Bool :=
  let whole := l.takeWhile Char.isDigit
  let l := l.dropWhile Char.isDigit
  let (fraction, l) := match l with
    | '.' :: l => (l.takeWhile Char.isDigit, l.dropWhile Char.isDigit)
    | l => ([], l)
  let finite (e : Int) : Bool :=
    isFiniteDecimal (numeral 10 (whole ++ fraction)) (e - fraction.length)
  if whole.isEmpty && fraction.isEmpty then false
  else match l with
    | [] => finite 0
    | c :: l =>
      if c = 'e' || c = 'E' then
        let ds := dropSign l
        let sign : Int := if l.head? = some '-' then -1 else 1
        !ds.isEmpty && ds.all Char.isDigit && finite (sign * numeral 10 ds)
      else false

/-- Whether a reader takes the plain text for a number, a truth value or nothing. -/
def isAmbiguous (s : String) : Bool :=
  let l := s.toList
  words.contains s || specialNumbers.contains s || isPadded l || isBasedInteger l
    || isDecimal (dropSign l)

/-- The style of a text; `inKey` where it has to stand on the line of its value. -/
def styleOf (inKey : Bool) (s : String) : Style :=
  let quoted := if fitsSingleQuoted s then Style.singleQuoted else .doubleQuoted
  if s.toList.contains '\n' then
    if fitsLiteral s && !inKey then .literal else .doubleQuoted
  else if inKey && hasBreak s then .doubleQuoted
  else if !isAmbiguous s && fitsPlain s then .plain
  else quoted

end Yaml
end TenantOperator
