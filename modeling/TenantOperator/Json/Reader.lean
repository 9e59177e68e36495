import TenantOperator.Json.Draft
import TenantOperator.Text.Hex

/-! Reading a document from text. Arrays and objects nest at most 127 deep. A whole number outside
64 bits, and every number with a point or an exponent, is a double. -/
namespace TenantOperator
namespace Json
namespace Reader

abbrev Rest := List Char

/-- A reader gives a value and the text after it. -/
abbrev Read (α : Type) := Option (α × Rest)

def isGap (c : Char) : Bool := c = ' ' || c = '\n' || c = '\t' || c = '\r'

def skipGaps (s : Rest) : Rest := s.dropWhile isGap

def maxNest : Nat := 127
def maxWord : Nat := UInt64.size - 1

def digit? (c : Char) : Option Nat := if c.isDigit then some (c.toNat - '0'.toNat) else none

/-- Digits of a whole number, as long as the significand fits a word, and the number of further
digits before the first that is none. -/
def wholeDigits (acc : Nat) : Rest → Nat × Nat × Rest
  | [] => (acc, 0, [])
  | c :: s =>
    match digit? c with
    | none => (acc, 0, c :: s)
    | some d =>
      if acc * 10 + d ≤ maxWord then wholeDigits (acc * 10 + d) s
      else
        let more := (c :: s).takeWhile Char.isDigit
        (acc, more.length, (c :: s).drop more.length)

/-- Digits after the point; those that would overflow the significand are dropped. -/
def fractionDigits (acc : Nat) (taken : Nat) : Rest → Nat × Nat × Rest
  | [] => (acc, taken, [])
  | c :: s =>
    match digit? c with
    | none => (acc, taken, c :: s)
    | some d =>
      if acc * 10 + d ≤ maxWord then fractionDigits (acc * 10 + d) (taken + 1) s
      else (acc, taken, (c :: s).dropWhile Char.isDigit)

def exponentDigits (s : Rest) : Option (Nat × Rest) :=
  match s.takeWhile Char.isDigit with
  | [] => none
  | ds => some (ds.foldl (fun n c => n * 10 + (c.toNat - '0'.toNat)) 0, s.dropWhile Char.isDigit)

def maxExponent : Nat := Nat.pow 2 31 - 1

def signed (negative : Bool) (x : Binary64) : Draft := .double (if negative then x.negate else x)

/-- A double from its significand, its decimal exponent so far and what follows. -/
def exponentPart (negative : Bool) (significand : Nat) (exponent : Int) (s : Rest) : Read Draft :=
  let finish (e : Int) (s : Rest) : Read Draft :=
    match Binary64.ofParts significand e with
    | some x => some (signed negative x, s)
    | none => some (.flawed, s)
  match s with
  | c :: s' =>
    if c = 'e' || c = 'E' then
      let (down, s') := match s' with
        | '+' :: t => (false, t)
        | '-' :: t => (true, t)
        | t => (false, t)
      match exponentDigits s' with
      | none => none
      | some (e, t) =>
        if e > maxExponent then
          some (if significand ≠ 0 && !down then .flawed
            else signed negative (Binary64.ofNat 0), t)
        else finish (if down then exponent - e else exponent + e) t
    else finish exponent s
  | [] => finish exponent s

def decimalPart (negative : Bool) (significand : Nat) (exponent : Int) (s : Rest) : Read Draft :=
  match s with
  | '.' :: s' =>
    match s' with
    | c :: _ =>
      if c.isDigit then
        let (sig, taken, t) := fractionDigits significand 0 s'
        exponentPart negative sig (exponent - taken) t
      else none
    | [] => none
  | s => exponentPart negative significand exponent s

def isFraction : Rest → Bool
  | c :: _ => c = '.' || c = 'e' || c = 'E'
  | [] => false

def unsigned (negative : Bool) (s : Rest) : Read Draft :=
  let number (significand : Nat) (further : Nat) (t : Rest) : Read Draft :=
    if further > 0 || isFraction t then decimalPart negative significand further t
    else if !negative then some (.int significand, t)
    else if significand = 0 || significand > Nat.pow 2 63 then
      some (signed true (Binary64.ofNat significand), t)
    else some (.int (-significand), t)
  match s with
  | '0' :: t =>
    match t with
    | c :: _ => if c.isDigit then none else number 0 0 t
    | [] => number 0 0 t
  | c :: _ =>
    if c.isDigit then
      let (significand, further, t) := wholeDigits 0 s
      number significand further t
    else none
  | [] => none

def number : Rest → Read Draft
  | '-' :: s => unsigned true s
  | s => unsigned false s

def hex4 : Rest → Read Nat
  | a :: b :: c :: d :: s =>
    match Text.hexDigit? a, Text.hexDigit? b, Text.hexDigit? c, Text.hexDigit? d with
    | some a, some b, some c, some d => some (((a * 16 + b) * 16 + c) * 16 + d, s)
    | _, _, _, _ => none
  | _ => none

/-- The character of an escape, after its backslash. Half a surrogate pair is none. -/
def escape : Rest → Read (Option Char)
  | '"' :: s => some ('"', s)
  | '\\' :: s => some ('\\', s)
  | '/' :: s => some ('/', s)
  | 'b' :: s => some ('\x08', s)
  | 'f' :: s => some ('\x0c', s)
  | 'n' :: s => some ('\n', s)
  | 'r' :: s => some ('\r', s)
  | 't' :: s => some ('\t', s)
  | 'u' :: s =>
    match hex4 s with
    | none => none
    | some (n, s) =>
      if 0xD800 ≤ n && n < 0xDC00 then
        match s with
        | '\\' :: 'u' :: s' =>
          match hex4 s' with
          | some (m, s') =>
            if 0xDC00 ≤ m && m < 0xE000 then
              some (Char.ofNat (0x10000 + (n - 0xD800) * 0x400 + (m - 0xDC00)), s')
            else some (none, s)
          | none => none
        | _ => some (none, s)
      else if 0xDC00 ≤ n && n < 0xE000 then some (none, s)
      else some (Char.ofNat n, s)
  | _ => none

/-- The rest of a string after its opening quote; none if a character was none. -/
def stringBody : Nat → Option (List Char) → Rest → Read (Option String)
  | 0, _, _ => none
  | fuel + 1, acc, s =>
    match s with
    | [] => none
    | '"' :: s => some (acc.map fun l => String.ofList l.reverse, s)
    | '\\' :: s =>
      match escape s with
      | none => none
      | some (c, s) => stringBody fuel (do return (← c) :: (← acc)) s
    | c :: s => if c.toNat < 0x20 then none else stringBody fuel (acc.map (c :: ·)) s

def string : Rest → Read (Option String)
  | '"' :: s => stringBody (s.length + 1) (some []) s
  | _ => none

def word (w : String) (d : Draft) (s : Rest) : Read Draft :=
  if w.toList.isPrefixOf s then some (d, s.drop w.length) else none

mutual
/-- A value without gaps before it. The fuel bounds the steps, `nest` the open brackets that may
still come. -/
def value : Nat → Nat → Rest → Read Draft
  | 0, _, _ => none
  | fuel + 1, nest, s =>
    match s with
    | 'n' :: _ => word "null" .null s
    | 't' :: _ => word "true" (.bool true) s
    | 'f' :: _ => word "false" (.bool false) s
    | '"' :: _ => (string s).map fun (t, s) => (t.elim .flawed .str, s)
    | '[' :: s =>
      let within (l : List Draft) : Draft := if nest = 0 then .flawed else .arr l
      match skipGaps s with
      | ']' :: s => some (within [], s)
      | s => (items fuel (nest - 1) [] s).map fun (l, s) => (within l, s)
    | '\x7b' :: s =>
      let within (l : List (String × Draft)) : Draft := if nest = 0 then .flawed else .obj l
      match skipGaps s with
      | '\x7d' :: s => some (within [], s)
      | s => (members fuel (nest - 1) (some []) s).map fun (l, s) => (l.elim .flawed within, s)
    | s => number s

def items : Nat → Nat → List Draft → Rest → Read (List Draft)
  | 0, _, _, _ => none
  | fuel + 1, nest, acc, s =>
    match value fuel nest s with
    | none => none
    | some (d, s) =>
      match skipGaps s with
      | ',' :: s => items fuel nest (d :: acc) (skipGaps s)
      | ']' :: s => some ((d :: acc).reverse, s)
      | _ => none

/-- Fields of an object; none if the key of one is none. -/
def members : Nat → Nat → Option (List (String × Draft)) → Rest →
    Read (Option (List (String × Draft)))
  | 0, _, _, _ => none
  | fuel + 1, nest, acc, s =>
    match string s with
    | none => none
    | some (k, s) =>
      match skipGaps s with
      | ':' :: s =>
        match value fuel nest (skipGaps s) with
        | none => none
        | some (d, s) =>
          let acc := do return (← k, d) :: (← acc)
          match skipGaps s with
          | ',' :: s => members fuel nest acc (skipGaps s)
          | '\x7d' :: s => some (acc.map List.reverse, s)
          | _ => none
      | _ => none
end

end Reader

def Draft.ofText? (text : String) : Option Draft :=
  let s := text.toList
  match Reader.value (2 * s.length + 2) Reader.maxNest (Reader.skipGaps s) with
  | some (d, rest) => if (Reader.skipGaps rest).isEmpty then some d else none
  | none => none

def ofText? (text : String) : Option Json := (Draft.ofText? text).bind Draft.toJson?

end Json
end TenantOperator
