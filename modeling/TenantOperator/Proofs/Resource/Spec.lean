import TenantOperator.Proofs.Json.Record
import TenantOperator.Resource.Declared

/-! Specifications are not changed by being written and read, and documents of specifications are
changed once only: what may be left out is filled in, a policy of `null` and unknown fields go. The
slots of a kind are its fields in the order of its documents. -/
namespace TenantOperator
open Json.Record

namespace InstanceSpec

def slots : List (String × Slot) :=
  [("name", .required), ("description", .defaulted (.str "")), ("configurationId", .required)]

theorem written : record.Written slots encode where
  sound := (((sound_required _ _).map _).seq (sound_defaulted _ _ _)).seq (sound_required _ _)
  names := rfl
  nodup := by decide
  encode_eq _ := rfl
  build_encode _ := rfl
  normal_of_build {get s} := by
    cases s
    simp +contextual [record, slots, encode, Json.get?, List.lookup_cons]

end InstanceSpec

namespace InstanceTemplateSpec

def slots : List (String × Slot) := [("configuration", .defaulted Configuration.empty)]

theorem written : record.Written slots encode where
  sound := (sound_defaulted _ _ _).map _
  names := rfl
  nodup := by decide
  encode_eq _ := rfl
  build_encode _ := rfl
  normal_of_build {get s} := by
    cases s
    simp [record, slots, encode, Json.get?]

end InstanceTemplateSpec

namespace MicroserviceSpec

def slots : List (String × Slot) :=
  [("name", .required), ("description", .defaulted (.str "")), ("functionalArea", .required),
    ("image", .required), ("imagePullPolicy", .optional), ("configId", .required)]

theorem written : record.Written slots encode where
  sound := ((((((sound_required _ _).map _).seq (sound_defaulted _ _ _)).seq
    (sound_required _ _)).seq (sound_required _ _)).seq (sound_defaulted _ _ _)).seq
    (sound_required _ _)
  names := rfl
  nodup := by decide
  encode_eq s := by
    obtain ⟨name, description, area, image, policy, id⟩ := s
    cases policy <;> rfl
  build_encode s := by
    obtain ⟨name, description, area, image, policy, id⟩ := s
    cases policy <;> rfl
  normal_of_build {get s} := by
    obtain ⟨name, description, area, image, policy, id⟩ := s
    cases policy <;> simp +contextual [record, slots, encode, Json.get?, Json.ofFields,
      List.lookup_cons]

end MicroserviceSpec

namespace MicroserviceTemplateSpec

def slots : List (String × Slot) :=
  [("functionalArea", .defaulted (.str "")), ("image", .defaulted (.str "")),
    ("configuration", .defaulted Configuration.empty)]

theorem written : record.Written slots encode where
  sound := (((sound_defaulted _ _ _).map _).seq (sound_defaulted _ _ _)).seq (sound_defaulted _ _ _)
  names := rfl
  nodup := by decide
  encode_eq _ := rfl
  build_encode _ := rfl
  normal_of_build {get s} := by
    cases s
    simp +contextual [record, slots, encode, Json.get?, List.lookup_cons]

end MicroserviceTemplateSpec

namespace TenantSpec

def slots : List (String × Slot) := [("name", .required), ("description", .defaulted (.str ""))]

theorem written : record.Written slots encode where
  sound := ((sound_required _ _).map _).seq (sound_defaulted _ _ _)
  names := rfl
  nodup := by decide
  encode_eq _ := rfl
  build_encode _ := rfl
  normal_of_build {get s} := by
    cases s
    simp +contextual [record, slots, encode, Json.get?, List.lookup_cons]

end TenantSpec

namespace PairingSpec

def slots : List (String × Slot) :=
  [("microserviceId", .required), ("tenantId", .required),
    ("configuration", .defaulted Configuration.empty)]

theorem written : record.Written slots encode where
  sound := (((sound_required _ _).map _).seq (sound_required _ _)).seq (sound_defaulted _ _ _)
  names := rfl
  nodup := by decide
  encode_eq _ := rfl
  build_encode _ := rfl
  normal_of_build {get s} := by
    cases s
    simp +contextual [record, slots, encode, Json.get?, List.lookup_cons]

end PairingSpec

/-- The specifications of all six declared kinds last: each is read back from its document, and the
document of what was read is settled. -/
theorem lasting_specs :
    Lasting InstanceSpec.encode InstanceSpec.decode InstanceSpec.slots ∧
    Lasting InstanceTemplateSpec.encode InstanceTemplateSpec.decode InstanceTemplateSpec.slots ∧
    Lasting MicroserviceSpec.encode MicroserviceSpec.decode MicroserviceSpec.slots ∧
    Lasting MicroserviceTemplateSpec.encode MicroserviceTemplateSpec.decode
      MicroserviceTemplateSpec.slots ∧
    Lasting TenantSpec.encode TenantSpec.decode TenantSpec.slots ∧
    Lasting PairingSpec.encode PairingSpec.decode PairingSpec.slots :=
  ⟨InstanceSpec.written.lasting _, InstanceTemplateSpec.written.lasting _,
    MicroserviceSpec.written.lasting _, MicroserviceTemplateSpec.written.lasting _,
    TenantSpec.written.lasting _, PairingSpec.written.lasting _⟩

/-- A policy of `null` and an unknown field go, a description is filled in. -/
example :
    (MicroserviceSpec.decode (.obj [("configId", .str "c"), ("imagePullPolicy", .null),
      ("functionalArea", .str "a"), ("owner", .str "o"), ("name", .str "m"),
      ("image", .str "i")])).map MicroserviceSpec.encode =
      .ok (.obj [("name", .str "m"), ("description", .str ""), ("functionalArea", .str "a"),
        ("image", .str "i"), ("configId", .str "c")]) := by rfl

end TenantOperator
