import TenantOperator.Json.Basic
import TenantOperator.Yaml.Scalar

/-! YAML documents in block style. Each level of mappings is two columns further in; a sequence in a
mapping stands in the column of its key. Lines are never folded. -/
namespace TenantOperator
namespace Yaml

def step : Nat := 2

structure Cursor where
  /-- Newest first. -/
  chars : List Char := []
  column : Nat := 0
  /-- Whether the text ends in a blank. -/
  blank : Bool := true
  /-- Whether the line so far holds nothing but indentation and its marks. -/
  fresh : Bool := true

namespace Cursor

def put (c : Char) (k : Cursor) : Cursor := { k with chars := c :: k.chars, column := k.column + 1 }

def newline (k : Cursor) : Cursor := { k with chars := '\n' :: k.chars, column := 0 }

def putBreak (c : Char) (k : Cursor) : Cursor := { k with chars := c :: k.chars, column := 0 }

def puts (l : List Char) (k : Cursor) : Cursor := l.foldl (fun k c => k.put c) k

/-- A mark of the syntax, apart from what is before it if `apart` is set. -/
def mark (l : List Char) (apart blank fresh : Bool) (k : Cursor) : Cursor :=
  let k := if apart && !k.blank then k.put ' ' else k
  { k.puts l with blank := blank, fresh := k.fresh && fresh }

/-- Goes to a column, on a new line where the present one is used. -/
def goTo (indent : Nat) (k : Cursor) : Cursor :=
  let k := if !k.fresh || k.column > indent || (k.column = indent && !k.blank) then k.newline else k
  { k.puts (List.replicate (indent - k.column) ' ') with blank := true, fresh := true }

end Cursor

def writePlain (s : String) (k : Cursor) : Cursor :=
  let k := if !k.blank && !s.isEmpty then k.put ' ' else k
  { k.puts s.toList with blank := false, fresh := false }

/-- Text in single quotes; after a line break it goes on in the scalar's column. -/
def writeSingleQuoted (indent : Nat) (s : String) (k : Cursor) : Cursor :=
  let (k, afterBreak) := s.toList.foldl (fun (k, afterBreak) c =>
      if isBreak c then
        let k : Cursor := if !afterBreak && c = '\n' then k.newline else k
        ({ k.putBreak c with fresh := true }, true)
      else
        let k : Cursor := if afterBreak then k.goTo indent else k
        let k := if c = '\'' then k.puts ['\'', '\''] else k.put c
        ({ k with fresh := if c = ' ' then k.fresh else false }, false))
    (k.mark ['\''] true false false, false)
  let k := if afterBreak then k.goTo indent else k
  { k.mark ['\''] false false false with blank := false, fresh := false }

def hexDigits (width n : Nat) : List Char :=
  let ds := (Nat.toDigits 16 n).map Char.toUpper
  List.replicate (width - ds.length) '0' ++ ds

def escaped (c : Char) : List Char :=
  let n := c.toNat
  let short : List (Nat × Char) :=
    [(0x00, '0'), (0x07, 'a'), (0x08, 'b'), (0x09, 't'), (0x0A, 'n'), (0x0B, 'v'), (0x0C, 'f'),
     (0x0D, 'r'), (0x1B, 'e'), (0x22, '"'), (0x5C, '\\'), (0x85, 'N'), (0xA0, '_'), (0x2028, 'L'),
     (0x2029, 'P')]
  if isPrintable c && !isBreak c && c ≠ '"' && c ≠ '\\' then [c]
  else match short.lookup n with
    | some e => ['\\', e]
    | none =>
      if n ≤ 0xFF then '\\' :: 'x' :: hexDigits 2 n
      else if n ≤ 0xFFFF then '\\' :: 'u' :: hexDigits 4 n
      else '\\' :: 'U' :: hexDigits 8 n

def writeDoubleQuoted (s : String) (k : Cursor) : Cursor :=
  let k := (k.mark ['"'] true false false).puts (s.toList.flatMap escaped)
  { k.mark ['"'] false false false with blank := false, fresh := false }

/-- Marks of a literal block: its indentation, where the text itself starts with a blank, and what
to do with the line breaks at its end. -/
def literalHints (l : List Char) : List Char :=
  let opensBlank := l.head?.any fun c => isSpace c || isBreak c
  let indentation := if opensBlank then Nat.toDigits 10 step else []
  let ending := match l.reverse with
    | [] => ['-']
    | [c] => if isBreak c then ['+'] else ['-']
    | c :: before :: _ => if !isBreak c then ['-'] else if isBreak before then ['+'] else []
  indentation ++ ending

def writeLiteral (indent : Nat) (s : String) (k : Cursor) : Cursor :=
  let k := (k.mark ['|'] true false false).mark (literalHints s.toList) false false false
  let start : Cursor := { k.newline with blank := true, fresh := true }
  (s.toList.foldl (fun (k, afterBreak) c =>
      if isBreak c then ({ k.putBreak c with fresh := true }, true)
      else
        let k : Cursor := if afterBreak then k.goTo indent else k
        ({ k.put c with fresh := false }, false))
    (start, true)).1

def writeText (inKey : Bool) (indent : Nat) (s : String) (k : Cursor) : Cursor :=
  match styleOf inKey s with
  | .plain => writePlain s k
  | .singleQuoted => writeSingleQuoted indent s k
  | .doubleQuoted => writeDoubleQuoted s k
  | .literal => writeLiteral indent s k

/-- Doubles keep a point or an exponent. -/
def doubles : Decimal.Layout := ⟨-5, 15, false⟩

/-- The longest key that stands on the line of its value. -/
def maxSimpleKey : Nat := 128

def isSimpleKey (s : String) : Bool := !hasBreak s && s.utf8ByteSize ≤ maxSimpleKey

/-- The column of a level below `indent`; there is none above the document. -/
def below : Option Nat → Nat
  | none => 0
  | some n => n + step

/-- A key with its mark; one that is long or has line breaks gets lines of its own. -/
def writeKey (column : Nat) (name : String) (k : Cursor) : Cursor :=
  let k := k.goTo column
  if isSimpleKey name then
    (writeText true (column + step) name k).mark [':'] false false false
  else
    let k := writeText false (column + step) name (k.mark ['?'] true false true)
    (k.goTo column).mark [':'] true false true

mutual
/-- A value in its place; `inMapping` after a key. -/
def writeNode (indent : Option Nat) (inMapping : Bool) : Json → Cursor → Cursor
  | .null, k => writePlain "null" k
  | .bool b, k => writePlain (if b then "true" else "false") k
  | .int n, k => writePlain (toString n) k
  | .double x, k => writePlain (doubles.text x) k
  | .str s, k => writeText false (match indent with
      | none => step
      | some n => n + step) s k
  | .arr [], k => (k.mark ['['] true true false).mark [']'] false false false
  | .obj [], k => (k.mark ['\x7b'] true true false).mark ['\x7d'] false false false
  | .arr (j :: items), k =>
    let column := if inMapping && !k.fresh then indent.getD 0 else below indent
    writeItems column items
      (writeNode (some column) false j ((k.goTo column).mark ['-'] true false true))
  | .obj ((name, j) :: fields), k =>
    let column := below indent
    writeFields column fields (writeNode (some column) true j (writeKey column name k))

def writeItems (column : Nat) : List Json → Cursor → Cursor
  | [], k => k
  | j :: items, k =>
    writeItems column items
      (writeNode (some column) false j ((k.goTo column).mark ['-'] true false true))

def writeFields (column : Nat) : List (String × Json) → Cursor → Cursor
  | [], k => k
  | (name, j) :: fields, k =>
    writeFields column fields (writeNode (some column) true j (writeKey column name k))
end

def document (j : Json) : String :=
  String.ofList ((writeNode none false j {}).goTo 0).chars.reverse

def documents (l : List Json) : String := "---\n".intercalate (l.map document)

end Yaml
end TenantOperator
