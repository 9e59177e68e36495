import TenantOperator.Text.Blank

/-! Points in time, as texts give them with an offset and as they are written without one. -/
namespace TenantOperator

/-- Seconds since 1970 began, and nanoseconds in the last of them; a leap second goes on with the
second before it. -/
structure Instant where
  seconds : Int
  nanos : Nat
  deriving DecidableEq

namespace Instant

inductive Fault where
  | badCharacter
  | tooShort
  | tooLong
  | outOfRange
  deriving DecidableEq

def Fault.message : Fault → String
  | badCharacter => "input contains invalid characters"
  | tooShort => "premature end of input"
  | tooLong => "trailing input"
  | outOfRange => "input is out of range"

/-- Days from the first of January 1970. Years are counted from March on. -/
def dayNumber (year : Int) (month day : Nat) : Int :=
  let y := if month ≤ 2 then year - 1 else year
  let ofEra := y % 400
  let ofYear : Int := (153 * ((month + 9) % 12) + 2) / 5 + day - 1
  y / 400 * 146097 + ofEra * 365 + ofEra / 4 - ofEra / 100 + ofYear - 719468

def date (days : Int) : Int × Nat × Nat :=
  let z := days + 719468
  let ofEra := z % 146097
  let year := (ofEra - ofEra / 1460 + ofEra / 36524 - ofEra / 146096) / 365
  let ofYear := (ofEra - (365 * year + year / 4 - year / 100)).toNat
  let m := (5 * ofYear + 2) / 153
  let month := if m < 10 then m + 3 else m - 9
  (z / 146097 * 400 + year + (if month ≤ 2 then 1 else 0), month, ofYear - (153 * m + 2) / 5 + 1)

abbrev Read := StateT (List Char) (Except Fault)

def skipBlanks : Read Unit := modify (·.dropWhile Text.isBlank)

/-- Digits, as many as there are up to `width`, with a value from `low` to `high`. -/
def number (width low high : Nat) : Read Nat := do
  skipBlanks
  let l ← get
  let digits := (l.take width).takeWhile Char.isDigit
  if l.isEmpty then throw .tooShort
  if digits.isEmpty then throw .badCharacter
  let n := digits.foldl (fun n c => 10 * n + (c.toNat - '0'.toNat)) 0
  if n < low || high < n then throw .outOfRange
  set (l.drop digits.length)
  return n

def maxYear : Nat := 262142

/-- A year has four digits, or any number of them behind a sign. -/
def year : Read Int := do
  skipBlanks
  match ← get with
  | '-' :: l => set l; return -(← number l.length 0 (maxYear + 1))
  | '+' :: l => set l; return ← number l.length 0 maxYear
  | _ => return ← number 4 0 9999

def oneOf (l : List Char) : Read Unit := do
  match ← get with
  | [] => throw .tooShort
  | c :: rest => if l.contains c then set rest else throw .badCharacter

def separator (c : Char) : Read Unit := do
  skipBlanks
  oneOf [c]

/-- Nanoseconds behind a point; the digits after the ninth do not count. -/
def fraction : Read Nat := do
  match ← get with
  | '.' :: l =>
    set l
    if l.isEmpty then throw .tooShort
    let digits := l.takeWhile Char.isDigit
    if digits.isEmpty then throw .badCharacter
    set (l.drop digits.length)
    let counted := digits.take 9
    return (counted.foldl (fun n c => 10 * n + (c.toNat - '0'.toNat)) 0)
      * Nat.pow 10 (9 - counted.length)
  | _ => return 0

/-- Two digits, the first of which may be at most `high`. -/
def twoDigits (high : Char) : Read Nat := do
  match ← get with
  | a :: b :: l =>
    if !a.isDigit || !b.isDigit then throw .badCharacter
    if high < a then throw .outOfRange
    set l
    return (a.toNat - '0'.toNat) * 10 + (b.toNat - '0'.toNat)
  | _ => throw .tooShort

def signed : Read Int := do
  match ← get with
  | [] => throw .tooShort
  | c :: l =>
    set l
    if c = '+' then return 1
    else if c = '-' || c = '\u2212' then return -1
    else throw .badCharacter

def offset : Read Int := do
  skipBlanks
  let l ← get
  if (l.take 3).map Char.toLower = ['u', 't', 'c'] then
    set (l.drop 3)
    return 0
  else if (l.take 1).map Char.toLower = ['z'] then
    set (l.drop 1)
    return 0
  else
    let sign ← signed
    let hours ← twoDigits '9'
    modify (·.dropWhile fun c => c = ':' || Text.isBlank c)
    let minutes ← twoDigits '5'
    return sign * (hours * 3600 + minutes * 60)

def reader : Read Instant := do
  let y ← year
  separator '-'
  let m ← number 2 1 12
  separator '-'
  let d ← number 2 1 31
  oneOf ['t', 'T', ' ']
  let hour ← number 2 0 23
  separator ':'
  let minute ← number 2 0 59
  separator ':'
  let second ← number 2 0 60
  let nanos ← fraction
  let ahead ← offset
  if (← get).any (!Text.isBlank ·) then throw .tooLong
  let day := dayNumber y m d
  if date day ≠ (y, m, d) || 86400 ≤ ahead.natAbs then throw .outOfRange
  let leap := if second = 60 then 1 else 0
  return ⟨day * 86400 + hour * 3600 + minute * 60 + (second - leap : Nat) - ahead,
    nanos + leap * Nat.pow 10 9⟩

def ofText (s : String) : Except Fault Instant := (reader.run s.toList).map (·.1)

def padded (width n : Nat) : String :=
  let l := Nat.toDigits 10 n
  String.ofList (List.replicate (width - l.length) '0' ++ l)

def yearText (y : Int) : String :=
  if 0 ≤ y && y ≤ 9999 then padded 4 y.toNat
  else (if y < 0 then "-" else "+") ++ padded 4 y.natAbs

def fractionText (nanos : Nat) : String :=
  if nanos = 0 then ""
  else if nanos % Nat.pow 10 6 = 0 then "." ++ padded 3 (nanos / Nat.pow 10 6)
  else if nanos % Nat.pow 10 3 = 0 then "." ++ padded 6 (nanos / Nat.pow 10 3)
  else "." ++ padded 9 nanos

/-- The text without an offset, with thousandths, millionths or billionths of a second only if there
are any. -/
def text (t : Instant) : String :=
  let (y, m, d) := date (t.seconds / 86400)
  let s := (t.seconds % 86400).toNat
  let leap := t.nanos / Nat.pow 10 9
  yearText y ++ "-" ++ padded 2 m ++ "-" ++ padded 2 d ++ "T" ++ padded 2 (s / 3600) ++ ":"
    ++ padded 2 (s / 60 % 60) ++ ":" ++ padded 2 (s % 60 + leap)
    ++ fractionText (t.nanos % Nat.pow 10 9) ++ "Z"

example : ["1970-01-01T00:00:00Z", "2024-02-29t23:30:00.5+02:00", "2016-12-31 23:59:60 utc",
      "-1-3-1T0:0:0-0030"].map (fun s => (ofText s).toOption.map text) =
    [some "1970-01-01T00:00:00Z", some "2024-02-29T21:30:00.500Z", some "2016-12-31T23:59:60Z",
     some "-0001-03-01T00:30:00Z"] := by decide +kernel

example : ["", "x", "2024-02-30T00:00:00Z", "2024-01-01", "2024-01-01T00:00:00Z!",
      "2024-01-01T00:00:00+0060"].filterMap (fun s => match ofText s with
        | .error f => some f
        | .ok _ => none) =
    [.tooShort, .badCharacter, .outOfRange, .tooShort, .tooLong, .outOfRange] := by decide +kernel

end Instant
end TenantOperator
