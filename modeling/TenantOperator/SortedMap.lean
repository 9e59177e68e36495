/-! Finite maps held as entry lists in strictly increasing key order. The order is part of the
type, so a map has one representation: equal lookups mean equal maps (`ext_find?`). -/
namespace TenantOperator

/-- Every entry comes before all entries after it. -/
abbrev Increasing {κ α : Type} [Ord κ] (l : List (κ × α)) : Prop :=
  l.Pairwise fun a b => compare a.1 b.1 = .lt

structure SortedMap (κ α : Type) [Ord κ] where
  entries : List (κ × α) := []
  increasing : Increasing entries := by exact List.Pairwise.nil

namespace SortedMap
variable {κ α β : Type} [Ord κ]

/-- First entry of `k`; the search stops at the first larger key. -/
def search (k : κ) : List (κ × α) → Option α
  | [] => none
  | (k', a) :: l =>
    match compare k k' with
    | .lt => none
    | .eq => some a
    | .gt => search k l

def place (k : κ) (a : α) : List (κ × α) → List (κ × α)
  | [] => [(k, a)]
  | (k', a') :: l =>
    match compare k k' with
    | .lt => (k, a) :: (k', a') :: l
    | .eq => (k, a) :: l
    | .gt => (k', a') :: place k a l

theorem increasing_filter (p : κ × α → Bool) {l : List (κ × α)} (h : Increasing l) :
    Increasing (l.filter p) :=
  h.sublist List.filter_sublist

theorem mem_place {k : κ} {a : α} {e : κ × α} {l : List (κ × α)} (h : e ∈ place k a l) :
    e = (k, a) ∨ e ∈ l := by
  induction l with
  | nil => simpa [place] using h
  | cons x l ih =>
    obtain ⟨k', a'⟩ := x
    simp only [place] at h
    split at h <;> simp only [List.mem_cons] at h ⊢ <;> grind

section lawful
variable [Std.TransOrd κ] [Std.LawfulEqOrd κ]

theorem increasing_place (k : κ) (a : α) {l : List (κ × α)} (h : Increasing l) :
    Increasing (place k a l) := by
  induction l with
  | nil => simp [place]
  | cons x l ih =>
    obtain ⟨k', a'⟩ := x
    obtain ⟨hx, hl⟩ := List.pairwise_cons.1 h
    simp only [place]
    split
    case h_1 hc =>
      refine List.pairwise_cons.2 ⟨fun e he => ?_, h⟩
      rcases List.mem_cons.1 he with rfl | he
      · exact hc
      · exact Std.TransCmp.lt_trans hc (hx e he)
    case h_2 hc =>
      have : k = k' := Std.LawfulEqCmp.eq_of_compare hc
      subst this
      exact List.pairwise_cons.2 ⟨hx, hl⟩
    case h_3 hc =>
      refine List.pairwise_cons.2 ⟨fun e he => ?_, ih hl⟩
      rcases mem_place he with rfl | he
      · exact Std.OrientedCmp.gt_iff_lt.1 hc
      · exact hx e he

end lawful

def find? (m : SortedMap κ α) (k : κ) : Option α := search k m.entries

def contains (m : SortedMap κ α) (k : κ) : Bool := (m.find? k).isSome

def keys (m : SortedMap κ α) : List κ := m.entries.map (·.1)

def values (m : SortedMap κ α) : List α := m.entries.map (·.2)

def size (m : SortedMap κ α) : Nat := m.entries.length

def isEmpty (m : SortedMap κ α) : Bool := m.entries.isEmpty

def filter (m : SortedMap κ α) (p : κ → α → Bool) : SortedMap κ α where
  entries := m.entries.filter fun e => p e.1 e.2
  increasing := increasing_filter _ m.increasing

def erase (m : SortedMap κ α) (k : κ) : SortedMap κ α :=
  m.filter fun k' _ => compare k k' != .eq

instance : Inhabited (SortedMap κ α) := ⟨{}⟩
instance : EmptyCollection (SortedMap κ α) := ⟨{}⟩

instance [DecidableEq κ] [DecidableEq α] : DecidableEq (SortedMap κ α)
  | ⟨l, _⟩, ⟨l', _⟩ =>
    if h : l = l' then isTrue (by subst h; rfl)
    else isFalse fun h' => h (by cases h'; rfl)

@[simp] theorem find?_empty (k : κ) : (∅ : SortedMap κ α).find? k = none := rfl

theorem search_eq_none_of_lt {k : κ} {l : List (κ × α)} (h : ∀ e ∈ l, compare k e.1 = .lt) :
    search k l = none := by
  cases l with
  | nil => rfl
  | cons x l => simp [search, h x (by simp)]

theorem increasing_keys (m : SortedMap κ α) : m.keys.Pairwise fun a b => compare a b = .lt :=
  List.pairwise_map.2 m.increasing

@[ext] theorem ext {m n : SortedMap κ α} (h : m.entries = n.entries) : m = n := by
  cases m; cases n; cases h; rfl

section lawful
variable [Std.TransOrd κ] [Std.LawfulEqOrd κ]

def insert (m : SortedMap κ α) (k : κ) (a : α) : SortedMap κ α where
  entries := place k a m.entries
  increasing := increasing_place k a m.increasing

/-- Later entries win over earlier ones of the same key. -/
def ofList (l : List (κ × α)) : SortedMap κ α :=
  l.foldl (fun (m : SortedMap κ α) e => m.insert e.1 e.2) ∅

def singleton (k : κ) (a : α) : SortedMap κ α := (∅ : SortedMap κ α).insert k a

theorem search_place (k k' : κ) (a : α) (l : List (κ × α)) :
    search k' (place k a l) = if compare k' k = .eq then some a else search k' l := by
  induction l with
  | nil => simp only [place, search]; split <;> simp_all
  | cons x l ih =>
    obtain ⟨j, b⟩ := x
    simp only [place]
    split
    case h_1 hc =>
      simp only [search]
      cases h : compare k' k with
      | lt => simp [Std.TransCmp.lt_trans h hc]
      | eq => simp
      | gt => simp
    case h_2 hc =>
      have : k = j := Std.LawfulEqCmp.eq_of_compare hc
      subst this
      simp only [search]
      cases h : compare k' k <;> simp
    case h_3 hc =>
      simp only [search, ih]
      cases h : compare k' j with
      | lt =>
        have : compare k' k = .lt := Std.TransCmp.lt_trans h (Std.OrientedCmp.gt_iff_lt.1 hc)
        simp [this]
      | eq =>
        have : k' = j := Std.LawfulEqCmp.eq_of_compare h
        subst this
        have : compare k' k = .lt := Std.OrientedCmp.gt_iff_lt.1 hc
        simp [this]
      | gt => simp

theorem find?_insert (m : SortedMap κ α) (k k' : κ) (a : α) :
    (m.insert k a).find? k' = if compare k' k = .eq then some a else m.find? k' :=
  search_place k k' a m.entries

@[simp] theorem find?_insert_self (m : SortedMap κ α) (k : κ) (a : α) :
    (m.insert k a).find? k = some a := by
  simp [find?_insert, Std.ReflCmp.compare_self]

theorem find?_insert_of_ne (m : SortedMap κ α) {k k' : κ} (h : k' ≠ k) (a : α) :
    (m.insert k a).find? k' = m.find? k' := by
  rw [find?_insert, if_neg]
  exact fun hc => h (Std.LawfulEqCmp.eq_of_compare hc)

theorem size_insert_of_find?_eq_none {m : SortedMap κ α} {k : κ} (h : m.find? k = none) (a : α) :
    (m.insert k a).size = m.size + 1 := by
  show (place k a m.entries).length = m.entries.length + 1
  have hs : search k m.entries = none := h
  generalize m.entries = l at hs
  induction l with
  | nil => rfl
  | cons x l ih =>
    obtain ⟨j, b⟩ := x
    cases hc : compare k j with
    | lt => simp [place, hc]
    | eq => simp [search, hc] at hs
    | gt =>
      simp only [search, hc] at hs
      simp [place, hc, ih hs]

theorem search_eq_some_iff {k : κ} {a : α} {l : List (κ × α)} (h : Increasing l) :
    search k l = some a ↔ (k, a) ∈ l := by
  induction l with
  | nil => simp [search]
  | cons x l ih =>
    obtain ⟨j, b⟩ := x
    obtain ⟨hx, hl⟩ := List.pairwise_cons.1 h
    have absent (hc : compare k j ≠ .gt) : (k, a) ∉ l := by
      intro hm
      have hj : compare j k = .lt := hx _ hm
      exact hc (Std.OrientedCmp.gt_iff_lt.2 hj)
    cases hc : compare k j with
    | lt =>
      have hne : k ≠ j := by
        rintro rfl
        simp [Std.ReflCmp.compare_self] at hc
      simp [search, hc, hne, absent (by simp [hc])]
    | eq =>
      have : k = j := Std.LawfulEqCmp.eq_of_compare hc
      subst this
      have hm := absent (by simp)
      simp [search, hm, eq_comm]
    | gt =>
      have hne : k ≠ j := by
        rintro rfl
        simp [Std.ReflCmp.compare_self] at hc
      simp [search, hc, hne, ih hl]

theorem find?_eq_some_iff {m : SortedMap κ α} {k : κ} {a : α} :
    m.find? k = some a ↔ (k, a) ∈ m.entries :=
  search_eq_some_iff m.increasing

theorem contains_iff_mem_keys {m : SortedMap κ α} {k : κ} : m.contains k ↔ k ∈ m.keys := by
  simp only [contains, Option.isSome_iff_exists, find?_eq_some_iff, keys, List.mem_map,
    Prod.exists, exists_and_right, exists_eq_right]

theorem eq_of_search_eq {l l' : List (κ × α)} (h : Increasing l) (h' : Increasing l')
    (hs : ∀ k, search k l = search k l') : l = l' := by
  induction l generalizing l' with
  | nil =>
    cases l' with
    | nil => rfl
    | cons y l' => simpa [search, Std.ReflCmp.compare_self] using hs y.1
  | cons x l ih =>
    obtain ⟨k, a⟩ := x
    cases l' with
    | nil => simpa [search, Std.ReflCmp.compare_self] using hs k
    | cons y l' =>
      obtain ⟨k', a'⟩ := y
      obtain ⟨hx, hl⟩ := List.pairwise_cons.1 h
      obtain ⟨hy, hl'⟩ := List.pairwise_cons.1 h'
      have head : compare k k' = .eq := by
        cases hc : compare k k' with
        | lt => simpa [search, hc, Std.ReflCmp.compare_self] using hs k
        | eq => rfl
        | gt =>
          have hc' : compare k' k = .lt := Std.OrientedCmp.gt_iff_lt.1 hc
          simpa [search, hc', Std.ReflCmp.compare_self] using hs k'
      have : k = k' := Std.LawfulEqCmp.eq_of_compare head
      subst this
      have ha : a = a' := by simpa [search, Std.ReflCmp.compare_self] using hs k
      subst ha
      congr 1
      refine ih hl hl' fun j => ?_
      -- Below and at the head, both tails hold nothing.
      cases hj : compare j k with
      | lt =>
        rw [search_eq_none_of_lt fun e he => Std.TransCmp.lt_trans hj (hx e he),
          search_eq_none_of_lt fun e he => Std.TransCmp.lt_trans hj (hy e he)]
      | eq =>
        have : j = k := Std.LawfulEqCmp.eq_of_compare hj
        subst this
        rw [search_eq_none_of_lt hx, search_eq_none_of_lt hy]
      | gt => simpa [search, hj] using hs j

theorem ext_find? {m n : SortedMap κ α} (h : ∀ k, m.find? k = n.find? k) : m = n :=
  ext (eq_of_search_eq m.increasing n.increasing h)

theorem insert_of_find?_eq_some {m : SortedMap κ α} {k : κ} {a : α} (h : m.find? k = some a) :
    m.insert k a = m := by
  refine ext_find? fun k' => ?_
  by_cases hk : k' = k
  · rw [hk, find?_insert_self, h]
  · exact find?_insert_of_ne m hk a

theorem find?_filter (m : SortedMap κ α) (p : κ → α → Bool) (k : κ) :
    (m.filter p).find? k = (m.find? k).filter (p k) := by
  ext a
  rw [Option.filter_eq_some_iff, find?_eq_some_iff, find?_eq_some_iff]
  exact List.mem_filter

@[simp] theorem find?_erase_self (m : SortedMap κ α) (k : κ) : (m.erase k).find? k = none := by
  simp [erase, find?_filter, Std.ReflCmp.compare_self]

theorem find?_erase_of_ne (m : SortedMap κ α) {k k' : κ} (h : k' ≠ k) :
    (m.erase k).find? k' = m.find? k' := by
  have hc : compare k k' ≠ .eq := fun hc => h (Std.LawfulEqCmp.eq_of_compare hc).symm
  rw [erase, find?_filter]
  cases m.find? k' <;> simp [Option.filter, hc]

theorem erase_of_find?_eq_none {m : SortedMap κ α} {k : κ} (h : m.find? k = none) :
    m.erase k = m := by
  refine ext_find? fun k' => ?_
  by_cases hk : k' = k
  · rw [hk, find?_erase_self, h]
  · exact find?_erase_of_ne m hk

end lawful

end SortedMap
end TenantOperator
