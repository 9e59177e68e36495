import TenantOperator.Cluster.Client

/-! Requests on the wire. Names that hold no character with a meaning in paths go out as they are,
and the path tells what the request is for; label texts without commas and equal signs can be read
back from a selector. -/
namespace TenantOperator
namespace Cluster

/-- A name that stands for itself in a path, and for one part of it. -/
def IsPlain (s : String) : Prop :=
  s ≠ "" ∧ ∀ c ∈ s.toList, Address.isPathChar c ∧ c ≠ '/' ∧ c ≠ '%'

instance (s : String) : Decidable (IsPlain s) :=
  @instDecidableAnd _ _ inferInstance (List.decidableBAll _ _)

namespace Target
variable {t : Target}

/-- A target with plain names, and with a namespace only where its kind has them. -/
structure Plain (t : Target) : Prop where
  ns : ∀ n ∈ t.ns, IsPlain n
  name : ∀ n ∈ t.name, IsPlain n
  spaced : t.ns.isSome → t.kind.isNamespaced

def space (t : Target) : List String :=
  match t.kind.isNamespaced, t.ns with
  | true, some ns => ["namespaces", ns]
  | _, _ => []

def segments (t : Target) : List String :=
  (if t.kind.group = "" then ["", "api"] else ["", "apis", t.kind.group]) ++
    t.kind.version :: (t.space ++ t.kind.plural :: t.name.toList)

theorem text_eq_intercalate (t : Target) : t.text = "/".intercalate t.segments := by
  obtain ⟨k, ns, name⟩ := t
  apply String.toList_inj.1
  rw [String.toList_intercalate]
  by_cases hg : k.group = "" <;> cases hk : k.isNamespaced <;> cases ns <;> cases name <;>
    simp [text, collection, segments, space, Kind.apiVersion, hg, hk]

def kind? (group version plural : String) : Option Kind :=
  Kind.all.find? fun k => k.group = group ∧ k.version = version ∧ k.plural = plural

theorem kind?_eq (k : Kind) : kind? k.group k.version k.plural = some k := by cases k <;> rfl

def ofRest? (group version : String) : List String → Option Target
  | [plural] => (kind? group version plural).map fun k => ⟨k, none, none⟩
  | [plural, name] => (kind? group version plural).map fun k => ⟨k, none, some name⟩
  | [_, ns, plural] => (kind? group version plural).map fun k => ⟨k, some ns, none⟩
  | [_, ns, plural, name] => (kind? group version plural).map fun k => ⟨k, some ns, some name⟩
  | _ => none

def ofPath? (path : String) : Option Target :=
  match (path.toList.splitOn '/').map String.ofList with
  | _ :: root :: first :: rest =>
    if root = "api" then ofRest? "" first rest
    else match rest with
      | version :: rest => ofRest? first version rest
      | [] => none
  | _ => none

theorem ofRest?_eq (ht : t.Plain) :
    ofRest? t.kind.group t.kind.version (t.space ++ t.kind.plural :: t.name.toList) = some t := by
  have hspaced := ht.spaced
  obtain ⟨k, ns, name⟩ := t
  cases hk : k.isNamespaced <;> cases ns <;> cases name <;>
    simp_all [ofRest?, space, kind?_eq]

theorem plain_segments (ht : t.Plain) : ∀ s ∈ t.segments, s = "" ∨ IsPlain s := by
  have hversion : IsPlain t.kind.version := by cases t.kind <;> decide
  have hplural : IsPlain t.kind.plural := by cases t.kind <;> decide
  have hgroup : t.kind.group = "" ∨ IsPlain t.kind.group := by cases t.kind <;> decide
  have hspace : ∀ s ∈ t.space, IsPlain s := by
    intro s hs
    unfold space at hs
    split at hs
    · rename_i ns _ hns
      simp only [List.mem_cons, List.not_mem_nil, or_false] at hs
      rcases hs with rfl | rfl
      · decide
      · exact ht.ns _ hns
    · simp at hs
  intro s hs
  simp only [segments, List.mem_append, List.mem_cons, Option.mem_toList] at hs
  rcases hs with hs | rfl | hs | rfl | hs
  · split at hs <;> simp only [List.mem_cons, List.not_mem_nil, or_false] at hs
    · rcases hs with rfl | rfl
      · exact .inl rfl
      · exact .inr (by decide)
    · rcases hs with rfl | rfl | rfl
      · exact .inl rfl
      · exact .inr (by decide)
      · exact hgroup
  · exact .inr hversion
  · exact .inr (hspace _ hs)
  · exact .inr hplural
  · exact .inr (ht.name _ hs)

theorem ofPath?_text (ht : t.Plain) : ofPath? t.text = some t := by
  have hsplit : (t.text.toList.splitOn '/').map String.ofList = t.segments := by
    rw [text_eq_intercalate, String.toList_intercalate]
    refine (congrArg _ (List.splitOn_intercalate '/' ?_ ?_)).trans ?_
    · intro l hl hc
      obtain ⟨s, hs, rfl⟩ := List.mem_map.1 hl
      rcases plain_segments ht s hs with rfl | hplain
      · simp at hc
      · exact (hplain.2 _ hc).2.1 rfl
    · simp [segments]
    · simp [Function.comp_def]
  rw [ofPath?, hsplit, segments]
  by_cases hg : t.kind.group = ""
  · have hrest := ofRest?_eq ht
    rw [hg] at hrest
    simpa [hg] using hrest
  · simpa [hg] using ofRest?_eq ht

theorem mem_intercalate {α : Type} {c : α} {sep : List α} {ls : List (List α)}
    (h : c ∈ sep.intercalate ls) : c ∈ sep ∨ ∃ l ∈ ls, c ∈ l := by
  induction ls with
  | nil => simp [List.intercalate] at h
  | cons l ls ih =>
    cases ls with
    | nil => exact .inr ⟨l, List.mem_singleton_self l, by simpa [List.intercalate] using h⟩
    | cons m ls =>
      rw [List.intercalate_cons_cons, List.mem_append, List.mem_append] at h
      rcases h with (h | h) | h
      · exact .inr ⟨l, List.mem_cons_self, h⟩
      · exact .inl h
      · rcases ih h with h | ⟨m', hm, h⟩
        · exact .inl h
        · exact .inr ⟨m', List.mem_cons_of_mem _ hm, h⟩

theorem isPathChar_text (ht : t.Plain) : ∀ c ∈ t.text.toList, Address.isPathChar c := by
  intro c hc
  rw [text_eq_intercalate, String.toList_intercalate] at hc
  rcases mem_intercalate hc with hc | ⟨l, hl, hc⟩
  · have hslash : "/".toList = ['/'] := rfl
    rw [hslash, List.mem_singleton] at hc
    rw [hc]
    rfl
  · obtain ⟨s, hs, rfl⟩ := List.mem_map.1 hl
    rcases plain_segments ht s hs with rfl | hplain
    · simp at hc
    · exact (hplain.2 c hc).1

end Target

namespace Query
variable {α : Type} [BEq α] [LawfulBEq α] {b : α} {l : List α}

theorem splitAt_append (h : b ∉ l) (rest : List α) :
    splitAt b (l ++ b :: rest) = (l, some rest) := by
  have hne : ∀ a ∈ l, (a != b) = true := fun a ha => bne_iff_ne.2 fun he => h (he ▸ ha)
  simp [splitAt, List.dropWhile_append_of_pos hne, List.takeWhile_append_of_pos hne]

theorem splitAt_of_not_mem (h : b ∉ l) : splitAt b l = (l, none) := by
  have hne : ∀ a ∈ l, (a != b) = true := fun a ha => bne_iff_ne.2 fun he => h (he ▸ ha)
  have hdrop : (l ++ []).dropWhile (· != b) = [] := List.dropWhile_append_of_pos hne
  rw [List.append_nil] at hdrop
  simp [splitAt, hdrop]

end Query

theorem Request.wire?_eq {q : Request} (hq : q.target.Plain) :
    q.wire? = some ⟨q.method, q.target.text, Query.ordered q.parameters, q.body⟩ := by
  have hpath := Target.isPathChar_text hq
  have hhash : '#' ∉ q.target.text.toList := fun h => absurd (hpath _ h) (by decide)
  have hquest : '?' ∉ q.target.text.toList := fun h => absurd (hpath _ h) (by decide)
  have htarget : Address.Target.ofText (q.target.text ++ if q.marksQuery then "?" else "") =
      ⟨q.target.text.toList, if q.marksQuery then some [] else none, false⟩ := by
    cases q.marksQuery with
    | false => simp [Address.Target.ofText, Query.splitAt_of_not_mem, hhash, hquest]
    | true =>
      have hhash' : '#' ∉ q.target.text.toList ++ ['?'] := by simp [hhash]
      simp [Address.Target.ofText, Query.splitAt_of_not_mem hhash', Query.splitAt_append hquest]
  have hvalid : (Address.Target.mk q.target.text.toList
      (if q.marksQuery then some [] else none) false).isValid = true := by
    rw [Address.Target.isValid, Bool.and_eq_true]
    refine ⟨List.all_eq_true.2 hpath, ?_⟩
    split <;> rfl
  have hpairs : Query.pairs "" = [] := by decide +kernel
  rw [Request.wire?]
  simp only [htarget, hvalid]
  cases q.marksQuery <;> simp [hpairs]

def requirement (l : List Char) : String × String :=
  let (label, value) := Query.splitAt '=' l
  (String.ofList label, String.ofList (value.getD []))

def selection (query : List (String × String)) : List (String × String) :=
  match query.lookup "labelSelector" with
  | none => []
  | some text => ((text.toList.splitOn ',').filter (!·.isEmpty)).map requirement

/-- Commas and equal signs end the parts of a selector. -/
def IsLabelText (s : String) : Prop := ',' ∉ s.toList ∧ '=' ∉ s.toList

def PlainLabels (labels : Labels) : Prop :=
  ∀ e ∈ labels.entries, IsLabelText e.1 ∧ IsLabelText e.2

theorem requirement_eq {label value : String} (h : IsLabelText label) :
    requirement (label ++ "=" ++ value).toList = (label, value) := by
  have heq : "=".toList = ['='] := rfl
  simp [requirement, heq, Query.splitAt_append h.2]

/-- A selector asks for the labels that it was made of. -/
theorem selection_selectorParameters {labels : Labels} (h : PlainLabels labels) :
    selection (Query.ordered (selectorParameters labels)) = labels.entries := by
  unfold selectorParameters
  split
  · rename_i hempty
    exact (List.isEmpty_iff.1 hempty).symm
  · rename_i hempty
    have hcomma : ",".toList = [','] := rfl
    have hsplit : labels.selectorText.toList.splitOn ',' =
        labels.entries.map fun e => (e.1 ++ "=" ++ e.2).toList := by
      rw [Labels.selectorText, String.toList_intercalate, hcomma, List.map_map]
      refine List.splitOn_intercalate ',' ?_ ?_
      · intro l hl
        obtain ⟨e, he, rfl⟩ := List.mem_map.1 hl
        have heq : "=".toList = ['='] := rfl
        simp [heq, (h e he).1.1, (h e he).2.1]
      · exact fun hnil => hempty (List.isEmpty_iff.2 (List.map_eq_nil_iff.1 hnil))
    show (((labels.selectorText.toList.splitOn ',').filter (!·.isEmpty)).map requirement) = _
    rw [hsplit, List.filter_eq_self.2, List.map_map]
    · refine (List.map_congr_left fun e he => ?_).trans (List.map_id _)
      exact requirement_eq (h e he).1
    · intro l hl
      obtain ⟨e, -, rfl⟩ := List.mem_map.1 hl
      simp

end Cluster
end TenantOperator
