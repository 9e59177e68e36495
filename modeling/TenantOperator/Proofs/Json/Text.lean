import Std.Data.String.ToInt
import TenantOperator.Json.Reader
import TenantOperator.Json.Writer

/-! The text of a document determines it, as long as its numbers are whole. A text is never the
start of another document's text in the same place: a string ends at its first bare quote, an array
and an object at their closing bracket, and a number where no numeral follows. -/
namespace TenantOperator
namespace Json

theorem hexDigit?_digitChar : ∀ n < 16, Text.hexDigit? (Nat.digitChar n) = some n := by
  decide

namespace Reader

theorem hex4_hexByte {n : Nat} (h : n < 0x100) (s : Rest) :
    hex4 ('0' :: '0' :: (hexByte n ++ s)) = some (n, s) := by
  have hzero : Text.hexDigit? '0' = some 0 := by decide
  have hhigh := hexDigit?_digitChar (n / 16 % 16) (Nat.mod_lt _ (by decide))
  have hlow := hexDigit?_digitChar (n % 16) (Nat.mod_lt _ (by decide))
  simp only [hexByte, List.cons_append, List.nil_append, hex4, hzero, hhigh, hlow]
  congr 2
  omega

theorem stringBody_escaped (c : Char) (fuel : Nat) (acc : List Char) (s : Rest) :
    stringBody (fuel + 1) (some acc) (escaped c ++ s) = stringBody fuel (some (c :: acc)) s := by
  by_cases hshort : c ∈ ['"', '\\', '\x08', '\x0c', '\n', '\r', '\t']
  · simp only [List.mem_cons, List.not_mem_nil, or_false] at hshort
    rcases hshort with rfl | rfl | rfl | rfl | rfl | rfl | rfl <;> rfl
  simp only [List.mem_cons, List.not_mem_nil, or_false, not_or] at hshort
  obtain ⟨hquote, hslash, hb, hf, hn, hr, ht⟩ := hshort
  rw [escaped, if_neg hquote, if_neg hslash, if_neg hb, if_neg hf, if_neg hn, if_neg hr, if_neg ht]
  by_cases hcontrol : c.toNat < 0x20
  · -- Control characters are far below the surrogates, which an escape may not name.
    have hhex := hex4_hexByte (Nat.lt_trans hcontrol (by decide)) s
    have hlow : ¬0xD800 ≤ c.toNat := by omega
    have hlow' : ¬0xDC00 ≤ c.toNat := by omega
    simp [stringBody, escape, hcontrol, hhex, hlow, hlow', Char.ofNat_toNat]
  · simp [stringBody, hcontrol]

theorem stringBody_flatMap (cs : List Char) {fuel : Nat} (h : cs.length < fuel) (acc : List Char)
    (s : Rest) : stringBody fuel (some acc) (cs.flatMap escaped ++ '"' :: s) =
      some (some (String.ofList (acc.reverse ++ cs)), s) := by
  induction cs generalizing fuel acc with
  | nil =>
    obtain ⟨fuel, rfl⟩ := Nat.exists_eq_succ_of_ne_zero (Nat.ne_zero_of_lt h)
    simp [stringBody]
  | cons c cs ih =>
    obtain ⟨fuel, rfl⟩ := Nat.exists_eq_succ_of_ne_zero (Nat.ne_zero_of_lt h)
    rw [List.flatMap_cons, List.append_assoc, stringBody_escaped,
      ih (Nat.lt_of_succ_lt_succ h), List.reverse_cons, List.append_assoc]
    rfl

theorem length_le_length_flatMap (cs : List Char) : cs.length ≤ (cs.flatMap escaped).length := by
  have hpos (c : Char) : 0 < (escaped c).length := by
    unfold escaped
    repeat' split
    all_goals simp
  induction cs with
  | nil => exact Nat.le_refl _
  | cons c cs ih =>
    rw [List.flatMap_cons, List.length_append, List.length_cons]
    have := hpos c
    omega

theorem string_quoted (t : String) (s : Rest) : string (quoted t ++ s) = some (some t, s) := by
  have hfuel := length_le_length_flatMap t.toList
  rw [quoted, List.cons_append, List.append_assoc, string, List.singleton_append,
    stringBody_flatMap _ (by rw [List.length_append]; omega), List.reverse_nil, List.nil_append,
    String.ofList_toList]

end Reader

theorem quoted_append_inj {s t : String} {r r' : List Char}
    (h : quoted s ++ r = quoted t ++ r') : s = t ∧ r = r' := by
  have hread := Reader.string_quoted s r
  rw [h, Reader.string_quoted] at hread
  simpa [eq_comm] using hread

def isNumeral (c : Char) : Bool := c = '-' || c.isDigit

/-- What follows a number in a text. -/
def Parted (r : List Char) : Prop := ∀ c ∈ r.head?, isNumeral c = false

theorem isNumeral_of_mem {n : Int} {c : Char} (h : c ∈ (toString n).toList) :
    isNumeral c = true := by
  have hdigit {m : Nat} (hm : c ∈ m.repr.toList) : c.isDigit = true := by
    rw [Nat.repr_eq_ofList_toDigits, String.toList_ofList] at hm
    exact Nat.isDigit_of_mem_toDigits (by decide) (by decide) hm
  rw [Int.toString_eq_repr, Int.repr_eq_if] at h
  split at h
  · simp [isNumeral, hdigit h]
  · rw [String.toList_append, List.mem_append] at h
    rcases h with h | h
    · simp_all [isNumeral]
    · simp [isNumeral, hdigit h]

theorem number_ne_nil (n : Int) : (toString n).toList ≠ [] := by
  rw [Int.toString_eq_repr, Int.repr_eq_if]
  split
  · simp
  · simp [String.toList_append]

theorem takeWhile_number {r : List Char} (hr : Parted r) (n : Int) :
    ((toString n).toList ++ r).takeWhile isNumeral = (toString n).toList := by
  rw [List.takeWhile_append_of_pos fun c hc => isNumeral_of_mem hc]
  cases r with
  | nil => simp
  | cons c r => simp [hr c rfl]

theorem number_append_inj {n m : Int} {r r' : List Char} (hr : Parted r) (hr' : Parted r')
    (h : (toString n).toList ++ r = (toString m).toList ++ r') : n = m ∧ r = r' := by
  have htext : (toString n).toList = (toString m).toList := by
    rw [← takeWhile_number hr, h, takeWhile_number hr']
  refine ⟨Int.repr_inj.1 (String.toList_inj.1 htext), ?_⟩
  rw [htext] at h
  exact List.append_cancel_left h

mutual
def isWhole : Json → Bool
  | .double _ => false
  | .arr items => itemsWhole items
  | .obj fields => fieldsWhole fields
  | _ => true

def itemsWhole : List Json → Bool
  | [] => true
  | j :: js => j.isWhole && itemsWhole js

def fieldsWhole : List (String × Json) → Bool
  | [] => true
  | (_, j) :: fs => j.isWhole && fieldsWhole fs
end

/-- What the first character of a text tells of the document. -/
inductive Form where
  | null | bool | number | text | array | object
  deriving DecidableEq

namespace Form

def of : Json → Form
  | .null => .null
  | .bool _ => .bool
  | .int _ => .number
  | .double _ => .number
  | .str _ => .text
  | .arr _ => .array
  | .obj _ => .object

def announced? (c : Char) : Option Form :=
  if c = 'n' then some .null else if c = 't' then some .bool else if c = 'f' then some .bool
  else if c = '"' then some .text else if c = '[' then some .array
  else if c = '\x7b' then some .object else if isNumeral c then some .number else none

theorem announced?_of_isNumeral {c : Char} (h : isNumeral c = true) :
    announced? c = some .number := by
  have hne {d : Char} (hd : isNumeral d = false) : c ≠ d := by
    rintro rfl
    exact absurd h (by simp [hd])
  simp only [announced?, if_neg (hne (d := 'n') rfl), if_neg (hne (d := 't') rfl),
    if_neg (hne (d := 'f') rfl), if_neg (hne (d := '"') rfl), if_neg (hne (d := '[') rfl),
    if_neg (hne (d := '\x7b') rfl), if_pos h]

end Form

theorem announced?_head? {j : Json} (h : j.isWhole = true) (r : List Char) :
    (j.chars ++ r).head?.bind Form.announced? = some (Form.of j) := by
  cases j with
  | null => rfl
  | bool b => cases b <;> rfl
  | int n =>
    obtain ⟨c, l, hl⟩ := List.exists_cons_of_ne_nil (number_ne_nil n)
    have hc : c ∈ (toString n).toList := by
      rw [hl]
      exact List.mem_cons_self
    rw [chars, hl]
    exact Form.announced?_of_isNumeral (isNumeral_of_mem hc)
  | double x => simp [isWhole] at h
  | str s => rfl
  | arr items => cases items <;> rfl
  | obj fields =>
    cases fields with
    | nil => rfl
    | cons f fields => rfl

theorem form_eq_of_chars_eq {a b : Json} {r r' : List Char} (ha : a.isWhole = true)
    (hb : b.isWhole = true) (h : a.chars ++ r = b.chars ++ r') : Form.of a = Form.of b := by
  have hform := announced?_head? ha r
  rw [h, announced?_head? hb r'] at hform
  exact (Option.some.inj hform).symm

theorem chars_ne_cons {j : Json} {c : Char} {r s : List Char} (h : j.isWhole = true)
    (hc : Form.announced? c = none) : j.chars ++ r ≠ c :: s := by
  intro he
  have hform := announced?_head? h r
  rw [he] at hform
  simp [hc] at hform

theorem parted_cons {c : Char} {r : List Char} (h : isNumeral c = false) : Parted (c :: r) := by
  rintro _ ⟨⟩
  exact h

theorem parted_itemChars (js : List Json) (r : List Char) : Parted (itemChars js ++ r) := by
  cases js <;> exact parted_cons rfl

theorem parted_fieldChars (fs : List (String × Json)) (r : List Char) :
    Parted (fieldChars fs ++ r) := by
  cases fs with
  | nil => exact parted_cons rfl
  | cons f fs => exact parted_cons rfl

theorem quoted_ne_cons {s : String} {c : Char} {r t : List Char} (hc : '"' ≠ c) :
    quoted s ++ r ≠ c :: t := fun h => hc (List.cons.inj h).1

/-- An array's text is that of its items, up to what stands before the first one. -/
theorem itemChars_eq_of_arr {as bs : List Json} {r r' : List Char} (ha : itemsWhole as = true)
    (hb : itemsWhole bs = true) (h : (arr as).chars ++ r = (arr bs).chars ++ r') :
    itemChars as ++ r = itemChars bs ++ r' := by
  match as, bs with
  | [], [] => exact congrArg List.tail h
  | [], b :: bs =>
    rw [itemsWhole, Bool.and_eq_true] at hb
    simp only [chars, List.cons_append, List.append_assoc, List.cons.injEq, true_and] at h
    exact absurd h.symm (chars_ne_cons hb.1 rfl)
  | a :: as, [] =>
    rw [itemsWhole, Bool.and_eq_true] at ha
    simp only [chars, List.cons_append, List.append_assoc, List.cons.injEq, true_and] at h
    exact absurd h (chars_ne_cons ha.1 rfl)
  | a :: as, b :: bs => exact congrArg (fun l => ',' :: l.tail) h

theorem fieldChars_eq_of_obj {as bs : List (String × Json)} {r r' : List Char}
    (h : (obj as).chars ++ r = (obj bs).chars ++ r') :
    fieldChars as ++ r = fieldChars bs ++ r' := by
  match as, bs with
  | [], [] => exact congrArg List.tail h
  | [], (l, b) :: bs =>
    simp only [chars, List.cons_append, List.append_assoc, List.cons.injEq, true_and] at h
    exact absurd h.symm (quoted_ne_cons (by decide))
  | (k, a) :: as, [] =>
    simp only [chars, List.cons_append, List.append_assoc, List.cons.injEq, true_and] at h
    exact absurd h (quoted_ne_cons (by decide))
  | (k, a) :: as, (l, b) :: bs => exact congrArg (fun l => ',' :: l.tail) h

mutual
/-- Texts in the same place are texts of the same document. -/
theorem chars_append_inj (a b : Json) {r r' : List Char} (ha : a.isWhole = true)
    (hb : b.isWhole = true) (hr : Parted r) (hr' : Parted r')
    (h : a.chars ++ r = b.chars ++ r') : a = b ∧ r = r' := by
  have hform := form_eq_of_chars_eq ha hb h
  match a, b with
  | .null, .null => exact ⟨rfl, List.append_cancel_left h⟩
  | .bool x, .bool y => cases x <;> cases y <;> simp_all [chars]
  | .int n, .int m =>
    obtain ⟨rfl, rfl⟩ := number_append_inj hr hr' h
    exact ⟨rfl, rfl⟩
  | .str s, .str t =>
    obtain ⟨rfl, rfl⟩ := quoted_append_inj h
    exact ⟨rfl, rfl⟩
  | .arr as, .arr bs =>
    obtain ⟨rfl, rfl⟩ := itemChars_append_inj as bs ha hb (itemChars_eq_of_arr ha hb h)
    exact ⟨rfl, rfl⟩
  | .obj as, .obj bs =>
    obtain ⟨rfl, rfl⟩ := fieldChars_append_inj as bs ha hb (fieldChars_eq_of_obj h)
    exact ⟨rfl, rfl⟩

theorem itemChars_append_inj (as bs : List Json) {r r' : List Char} (ha : itemsWhole as = true)
    (hb : itemsWhole bs = true) (h : itemChars as ++ r = itemChars bs ++ r') :
    as = bs ∧ r = r' := by
  match as, bs with
  | [], [] => exact ⟨rfl, List.append_cancel_left h⟩
  | [], b :: bs => exact absurd (List.cons.inj h).1 (by decide)
  | a :: as, [] => exact absurd (List.cons.inj h).1 (by decide)
  | a :: as, b :: bs =>
    rw [itemsWhole, Bool.and_eq_true] at ha hb
    simp only [itemChars, List.cons_append, List.append_assoc, List.cons.injEq, true_and] at h
    obtain ⟨rfl, hitems⟩ := chars_append_inj a b ha.1 hb.1 (parted_itemChars as r)
      (parted_itemChars bs r') h
    obtain ⟨rfl, rfl⟩ := itemChars_append_inj as bs ha.2 hb.2 hitems
    exact ⟨rfl, rfl⟩

theorem fieldChars_append_inj (as bs : List (String × Json)) {r r' : List Char}
    (ha : fieldsWhole as = true) (hb : fieldsWhole bs = true)
    (h : fieldChars as ++ r = fieldChars bs ++ r') : as = bs ∧ r = r' := by
  match as, bs with
  | [], [] => exact ⟨rfl, List.append_cancel_left h⟩
  | [], (l, b) :: bs => exact absurd (List.cons.inj h).1 (by decide)
  | (k, a) :: as, [] => exact absurd (List.cons.inj h).1 (by decide)
  | (k, a) :: as, (l, b) :: bs =>
    rw [fieldsWhole, Bool.and_eq_true] at ha hb
    simp only [fieldChars, List.cons_append, List.append_assoc, List.cons.injEq, true_and] at h
    obtain ⟨rfl, hvalue⟩ := quoted_append_inj h
    obtain ⟨rfl, hfields⟩ := chars_append_inj a b ha.1 hb.1 (parted_fieldChars as r)
      (parted_fieldChars bs r') (List.cons.inj hvalue).2
    obtain ⟨rfl, rfl⟩ := fieldChars_append_inj as bs ha.2 hb.2 hfields
    exact ⟨rfl, rfl⟩
end

theorem text_inj {a b : Json} (ha : a.isWhole = true) (hb : b.isWhole = true) :
    a.text = b.text ↔ a = b := by
  refine ⟨fun h => ?_, congrArg text⟩
  have hchars : a.chars = b.chars := by
    simpa [text] using congrArg String.toList h
  have hnil : Parted [] := nofun
  exact (chars_append_inj a b ha hb hnil hnil (by rw [hchars])).1

end Json
end TenantOperator
