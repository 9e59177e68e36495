import Mathlib.Data.List.Nodup
import TenantOperator.Json.Decode

/-! Reading records. A record that has no field twice is read by looking its declared fields up, so
neither the order of the fields nor what else there is counts, and an array is read as the record of
the declared fields in order. Fields have a normal form, which reading does not tell from them: what
may be left out is there with its default, or is not there at all. -/
namespace TenantOperator
namespace Json

theorem bind_eq_ok {ε α β : Type} {x : Except ε α} {f : α → Except ε β} {b : β} :
    x >>= f = .ok b ↔ ∃ a, x = .ok a ∧ f a = .ok b := by
  cases x with
  | error e => simp [bind, Except.bind]
  | ok a => simp [bind, Except.bind]

theorem map_eq_ok {ε α β : Type} {x : Except ε α} {f : α → β} {b : β} :
    x.map f = .ok b ↔ ∃ a, x = .ok a ∧ f a = b := by
  cases x <;> simp [Except.map]

namespace Decoder
variable {α : Type} {j : Json}

theorem string_eq_ok {s : String} : Decoder.string j = .ok s ↔ j = .str s := by
  cases j <;> simp [Decoder.string]

theorem any_eq_ok {a : Json} : Decoder.any j = .ok a ↔ j = a := by
  simp [Decoder.any]

end Decoder

namespace Record
variable {α β : Type} {get : String → Option Json} {name : String} {d : Decoder α}

@[simp] theorem build_seq_eq_ok {f : Record (α → β)} {r : Record α} {b : β} :
    (f <*> r).build get = .ok b ↔
      ∃ g, f.build get = .ok g ∧ ∃ a, r.build get = .ok a ∧ g a = b := by
  show (do return (← f.build get) (← r.build get)) = Except.ok b ↔ _
  simp [bind_eq_ok, pure, Except.pure]

@[simp] theorem build_map_eq_ok {f : α → β} {r : Record α} {b : β} :
    (f <$> r).build get = .ok b ↔ ∃ a, r.build get = .ok a ∧ f a = b := by
  show ((pure f : Record (α → β)) <*> r).build get = .ok b ↔ _
  simp [build_seq_eq_ok, pure]

theorem build_required_eq_ok {a : α} :
    (required name d).build get = .ok a ↔ ∃ j, get name = some j ∧ d j = .ok a := by
  cases h : get name <;> simp [required, h]

theorem build_defaulted_eq_ok {a b : α} :
    (defaulted name d a).build get = .ok b ↔
      (∃ j, get name = some j ∧ d j = .ok b) ∨ get name = none ∧ a = b := by
  cases h : get name <;> simp [defaulted, h]

/-- Whatever a value is built from has passed the checks of the fields. -/
def Sound (r : Record α) : Prop :=
  ∀ get a, r.build get = .ok a → ∀ f ∈ r.fields, ∀ j, get f.name = some j → f.check j = .ok ()

theorem Sound.seq {f : Record (α → β)} {r : Record α} (hf : f.Sound) (hr : r.Sound) :
    (f <*> r).Sound := by
  intro get b hb x hx j hj
  obtain ⟨g, hg, a, ha, -⟩ := build_seq_eq_ok.1 hb
  rcases List.mem_append.1 hx with hx | hx
  · exact hf get g hg x hx j hj
  · exact hr get a ha x hx j hj

theorem Sound.map {r : Record α} (hr : r.Sound) (f : α → β) : (f <$> r).Sound := by
  intro get b hb x hx j hj
  obtain ⟨a, ha, -⟩ := build_map_eq_ok.1 hb
  exact hr get a ha x hx j hj

theorem sound_required (name : String) (d : Decoder α) : (required name d).Sound := by
  intro get a ha x hx j hj
  obtain rfl := List.mem_singleton.1 hx
  obtain ⟨i, hi, hread⟩ := build_required_eq_ok.1 ha
  cases hi.symm.trans hj
  exact map_eq_ok.2 ⟨a, hread, rfl⟩

theorem sound_defaulted (name : String) (d : Decoder α) (a : α) : (defaulted name d a).Sound := by
  intro get b hb x hx j hj
  obtain rfl := List.mem_singleton.1 hx
  rcases build_defaulted_eq_ok.1 hb with ⟨i, hi, hread⟩ | ⟨hnone, -⟩
  · cases hi.symm.trans hj
    exact map_eq_ok.2 ⟨b, hread, rfl⟩
  · cases hnone.symm.trans hj

theorem check_eq_ok {r : Record α} {fields : List (String × Json)}
    (h : ∀ e ∈ fields, ∀ f ∈ r.fields, f.name = e.1 → f.check e.2 = .ok ()) :
    r.check fields = .ok () := by
  induction fields with
  | nil => rfl
  | cons e fields ih =>
    have hrest := ih fun e he => h e (List.mem_cons_of_mem _ he)
    refine bind_eq_ok.2 ⟨(), ?_, hrest⟩
    cases hf : r.fields.find? (·.name = e.1) with
    | none => simp only [hf]
    | some f =>
      have hname : f.name = e.1 := by simpa using List.find?_some hf
      simpa only [hf] using h e List.mem_cons_self f (List.mem_of_find?_eq_some hf) hname

theorem lookup_eq_some_iff {fields : List (String × Json)} (h : (fields.map (·.1)).Nodup)
    {k : String} {j : Json} : fields.lookup k = some j ↔ (k, j) ∈ fields := by
  induction fields with
  | nil => simp
  | cons e fields ih =>
    obtain ⟨hnot, hnodup⟩ := List.nodup_cons.1 h
    obtain ⟨k', j'⟩ := e
    by_cases hk : k = k'
    · subst hk
      have hmem (i : Json) : (k, i) ∉ fields := fun hm => hnot (List.mem_map.2 ⟨_, hm, rfl⟩)
      simp [hmem, eq_comm]
    · have hne : (k == k') = false := by simpa using hk
      simp [List.lookup_cons, hne, ih hnodup, hk]

/-- The order of fields does not count where none is given twice. -/
theorem lookup_of_perm {fields fields' : List (String × Json)} (h : (fields.map (·.1)).Nodup)
    (hperm : fields'.Perm fields) (k : String) : fields'.lookup k = fields.lookup k := by
  have h' : (fields'.map (·.1)).Nodup := (hperm.map _).nodup_iff.2 h
  ext j
  rw [lookup_eq_some_iff h', lookup_eq_some_iff h, hperm.mem_iff]

theorem readObject_of_build {r : Record α} (hr : r.Sound) {fields : List (String × Json)}
    (hnodup : (fields.map (·.1)).Nodup) {a : α} (ha : r.build (fields.lookup ·) = .ok a)
    (expected : String) : r.readObject expected (.obj fields) = .ok a := by
  refine bind_eq_ok.2 ⟨(), check_eq_ok fun e he f hf hname => ?_, ha⟩
  refine hr _ a ha f hf e.2 ?_
  rw [hname]
  exact (lookup_eq_some_iff hnodup).2 he

theorem build_of_readObject {r : Record α} {fields : List (String × Json)} {expected : String}
    {a : α} (h : r.readObject expected (.obj fields) = .ok a) :
    r.build (fields.lookup ·) = .ok a := by
  obtain ⟨-, -, ha⟩ := bind_eq_ok.1 h
  exact ha

theorem eq_zip_of_byPosition {expected : String} {fs : List Field} {i : Nat} {items : List Json}
    {fields : List (String × Json)} (h : byPosition expected fs i items = .ok fields) :
    fields = (fs.map (·.name)).zip items := by
  induction fs generalizing i items fields with
  | nil =>
    cases items with
    | nil => cases h; rfl
    | cons j items => cases h
  | cons f fs ih =>
    cases items with
    | nil =>
      rw [byPosition] at h
      split at h
      · rw [ih h]
        simp
      · cases h
    | cons j items =>
      rw [byPosition] at h
      obtain ⟨-, -, hrest⟩ := bind_eq_ok.1 h
      obtain ⟨rest, hpos, heq⟩ := bind_eq_ok.1 hrest
      cases heq
      rw [ih hpos]
      rfl

/-- The fields that a document gives a record of the declared `names`. -/
def given (names : List String) : Json → List (String × Json)
  | .obj fields => fields
  | .arr items => names.zip items
  | _ => []

theorem build_of_decode {r : Record α} {type : String} {j : Json} {a : α}
    (h : r.ofObjectOrArray type j = .ok a) :
    r.build ((given (r.fields.map (·.name)) j).lookup ·) = .ok a := by
  cases j with
  | obj fields =>
    have hread : r.readObject ("struct " ++ type) (.obj fields) = .ok a := h
    exact build_of_readObject hread
  | arr items =>
    obtain ⟨fields, hpos, ha⟩ := bind_eq_ok.1 h
    rw [eq_zip_of_byPosition hpos] at ha
    exact ha
  | _ => cases h

inductive Slot where
  /-- It has to be there. -/
  | required
  /-- It may be left out, and is `j` then. -/
  | defaulted (j : Json)
  /-- It may be left out, and `null` is no value, either. -/
  | optional
  deriving DecidableEq

def Slot.normal : Slot → Option Json → Option Json
  | required, v => v
  | defaulted j, v => some (v.getD j)
  | optional, v => v.filter (· ≠ .null)

/-- The document of the declared fields and nothing else. -/
def ofSlots (slots : List (String × Slot)) (value : String × Slot → Option Json) : Json :=
  .ofFields (slots.map fun p => (p.1, value p))

/-- The document that is written for what was read from `j`. -/
def normal (slots : List (String × Slot)) (j : Json) : Json :=
  ofSlots slots fun p => p.2.normal ((given (slots.map (·.1)) j).lookup p.1)

@[simp] theorem build_required_string_iff {s : String} :
    (required name Decoder.string).build get = .ok s ↔
      Slot.required.normal (get name) = some (.str s) := by
  simp [build_required_eq_ok, Decoder.string_eq_ok, Slot.normal]

@[simp] theorem build_defaulted_string_iff {s t : String} :
    (defaulted name Decoder.string s).build get = .ok t ↔
      (Slot.defaulted (.str s)).normal (get name) = some (.str t) := by
  cases h : get name <;> simp [build_defaulted_eq_ok, Decoder.string_eq_ok, Slot.normal, h]

@[simp] theorem build_defaulted_any_iff {i j : Json} :
    (defaulted name Decoder.any i).build get = .ok j ↔
      (Slot.defaulted i).normal (get name) = some j := by
  cases h : get name <;> simp [build_defaulted_eq_ok, Decoder.any_eq_ok, Slot.normal, h]

@[simp] theorem build_optional_string_iff {v : Option String} :
    (optional name Decoder.string).build get = .ok v ↔
      Slot.optional.normal (get name) = v.map .str := by
  rw [optional, build_defaulted_eq_ok]
  cases h : get name with
  | none => cases v <;> simp [Slot.normal]
  | some j =>
    cases j <;> cases v <;>
      simp [Decoder.optional, Decoder.string, Except.map, Slot.normal, Option.filter]

theorem keys_sublist_of_ofSlots {slots : List (String × Slot)} {value : String × Slot → Option Json}
    {fields : List (String × Json)} (h : ofSlots slots value = .obj fields) :
    (fields.map (·.1)).Sublist (slots.map (·.1)) := by
  cases h
  induction slots with
  | nil => exact .slnil
  | cons p slots ih =>
    rw [List.map_cons, List.map_cons, List.filterMap_cons]
    cases value p with
    | none => exact ih.cons p.1
    | some j => exact ih.cons_cons p.1

/-- Values of a record are written with the fields of its slots, are built from them, and from
documents with the same normal fields. -/
structure Written (r : Record α) (slots : List (String × Slot)) (encode : α → Json) : Prop where
  sound : r.Sound
  names : r.fields.map (·.name) = slots.map (·.1)
  nodup : (slots.map (·.1)).Nodup
  encode_eq (a : α) : encode a = ofSlots slots fun p => (encode a).get? p.1
  build_encode (a : α) : r.build (encode a).get? = .ok a
  normal_of_build {get : String → Option Json} {a : α} : r.build get = .ok a →
    ∀ p ∈ slots, p.2.normal (get p.1) = (encode a).get? p.1

namespace Written
variable {r : Record α} {slots : List (String × Slot)} {encode : α → Json}
  (h : Written r slots encode)
include h

theorem encode_of_decode {type : String} {j : Json} {a : α}
    (ha : r.ofObjectOrArray type j = .ok a) : encode a = normal slots j := by
  have hb := build_of_decode ha
  rw [h.names] at hb
  rw [h.encode_eq, normal, ofSlots, ofSlots]
  refine congrArg Json.ofFields (List.map_congr_left fun p hp => congrArg (Prod.mk p.1) ?_)
  exact (h.normal_of_build hb p hp).symm

theorem decode_of_perm (type : String) {a : α} {fields fields' : List (String × Json)}
    (he : encode a = .obj fields) (hperm : fields'.Perm fields) :
    r.ofObjectOrArray type (.obj fields') = .ok a := by
  have hkeys : (fields.map (·.1)).Nodup :=
    h.nodup.sublist (keys_sublist_of_ofSlots ((h.encode_eq a).symm.trans he))
  have hlookup : (fields'.lookup ·) = (encode a).get? := by
    rw [he]
    exact funext (lookup_of_perm hkeys hperm)
  refine readObject_of_build h.sound ((hperm.map _).nodup_iff.2 hkeys) ?_ ("struct " ++ type)
  rw [hlookup, h.build_encode]

end Written

/-- What is written is read back, whatever the order of the fields, and what was read from a
document is written in the normal form of the document, which stays as it is from then on. -/
structure Lasting (encode : α → Json) (decode : Decoder α) (slots : List (String × Slot)) :
    Prop where
  reads_back (a : α) : decode (encode a) = .ok a
  any_order {a : α} {fields fields' : List (String × Json)} :
    encode a = .obj fields → fields'.Perm fields → decode (.obj fields') = .ok a
  normal {j : Json} {a : α} : decode j = .ok a → encode a = normal slots j
  settled {j : Json} {a : α} : decode j = .ok a →
    (decode (encode a)).map encode = .ok (encode a) ∧ Record.normal slots (encode a) = encode a

theorem Written.lasting {r : Record α} {slots : List (String × Slot)} {encode : α → Json}
    (h : Written r slots encode) (type : String) :
    Lasting encode (r.ofObjectOrArray type) slots := by
  have hback (a : α) : r.ofObjectOrArray type (encode a) = .ok a := by
    rw [h.encode_eq]
    exact h.decode_of_perm type (h.encode_eq a) (.refl _)
  refine ⟨hback, h.decode_of_perm type, h.encode_of_decode, fun _ => ⟨?_, ?_⟩⟩
  · rw [hback]
    rfl
  · exact (h.encode_of_decode (hback _)).symm

end Record
end Json
end TenantOperator
