import TenantOperator.Json.Decode
import TenantOperator.Error
import TenantOperator.Text.Blank

/-! Specifications of the declared kinds, their documents and the rules a valid one keeps. -/
namespace TenantOperator
open Json (Record Decoder)

/-- An opaque document that templates carry and pairings copy. -/
abbrev Configuration := Json

def Configuration.empty : Configuration := .obj []

structure InstanceSpec where
  name : String
  description : String := ""
  /-- Name of the template of the instance bundle. -/
  configurationId : String
  deriving DecidableEq

namespace InstanceSpec

def encode (s : InstanceSpec) : Json :=
  .obj [("name", .str s.name), ("description", .str s.description),
    ("configurationId", .str s.configurationId)]

def record : Record InstanceSpec :=
  (fun name description configurationId => { name, description, configurationId })
  <$> .required "name" Decoder.string
  <*> .defaulted "description" Decoder.string ""
  <*> .required "configurationId" Decoder.string

def decode : Decoder InstanceSpec := record.ofObjectOrArray "InstanceSpec"

def validate (s : InstanceSpec) : Except Error Unit :=
  if Text.allBlank s.configurationId then
    .error (.validation "instance configurationId must not be empty")
  else .ok ()

end InstanceSpec

structure InstanceTemplateSpec where
  configuration : Configuration
  deriving DecidableEq

namespace InstanceTemplateSpec

def encode (s : InstanceTemplateSpec) : Json := .obj [("configuration", s.configuration)]

def record : Record InstanceTemplateSpec :=
  (fun configuration => { configuration })
  <$> .defaulted "configuration" Decoder.any Configuration.empty

def decode : Decoder InstanceTemplateSpec := record.ofObjectOrArray "InstanceConfigurationSpec"

end InstanceTemplateSpec

structure MicroserviceSpec where
  name : String
  description : String := ""
  /-- Names the tenant bundle's entry and the routing path of the microservice. -/
  functionalArea : String
  image : String
  imagePullPolicy : Option String := none
  /-- Name of the template copied into new pairings. -/
  configurationId : String
  deriving DecidableEq

namespace MicroserviceSpec

def encode (s : MicroserviceSpec) : Json :=
  .ofFields [("name", some (.str s.name)), ("description", some (.str s.description)),
    ("functionalArea", some (.str s.functionalArea)), ("image", some (.str s.image)),
    ("imagePullPolicy", s.imagePullPolicy.map .str), ("configId", some (.str s.configurationId))]

def record : Record MicroserviceSpec :=
  (fun name description functionalArea image imagePullPolicy configurationId =>
    { name, description, functionalArea, image, imagePullPolicy, configurationId })
  <$> .required "name" Decoder.string
  <*> .defaulted "description" Decoder.string ""
  <*> .required "functionalArea" Decoder.string
  <*> .required "image" Decoder.string
  <*> .optional "imagePullPolicy" Decoder.string
  <*> .required "configId" Decoder.string

def decode : Decoder MicroserviceSpec := record.ofObjectOrArray "MicroserviceSpec"

/-- Characters of an area; it is a path segment and a bundle key. -/
def isAreaChar (c : Char) : Bool := c.isAlphanum || c = '-' || c = '_' || c = '.'

def validateArea (area : String) : Except Error Unit :=
  if area.isEmpty then .error (.validation "microservice functionalArea must not be empty")
  else if area.toList.all isAreaChar then .ok ()
  else .error (.validation ("microservice functionalArea '" ++ area ++
    "' must contain only alphanumerics, '-', '_' or '.'"))

def validate (s : MicroserviceSpec) : Except Error Unit := do
  validateArea s.functionalArea
  if Text.allBlank s.image then .error (.validation "microservice image must not be empty")
  else .ok ()

end MicroserviceSpec

structure MicroserviceTemplateSpec where
  functionalArea : String := ""
  image : String := ""
  configuration : Configuration
  deriving DecidableEq

namespace MicroserviceTemplateSpec

def encode (s : MicroserviceTemplateSpec) : Json :=
  .obj [("functionalArea", .str s.functionalArea), ("image", .str s.image),
    ("configuration", s.configuration)]

def record : Record MicroserviceTemplateSpec :=
  (fun functionalArea image configuration => { functionalArea, image, configuration })
  <$> .defaulted "functionalArea" Decoder.string ""
  <*> .defaulted "image" Decoder.string ""
  <*> .defaulted "configuration" Decoder.any Configuration.empty

def decode : Decoder MicroserviceTemplateSpec :=
  record.ofObjectOrArray "MicroserviceConfigurationSpec"

end MicroserviceTemplateSpec

structure TenantSpec where
  name : String
  description : String := ""
  deriving DecidableEq

namespace TenantSpec

def encode (s : TenantSpec) : Json :=
  .obj [("name", .str s.name), ("description", .str s.description)]

def record : Record TenantSpec :=
  (fun name description => { name, description })
  <$> .required "name" Decoder.string
  <*> .defaulted "description" Decoder.string ""

def decode : Decoder TenantSpec := record.ofObjectOrArray "TenantSpec"

end TenantSpec

structure PairingSpec where
  microserviceId : String
  tenantId : String
  configuration : Configuration
  deriving DecidableEq

namespace PairingSpec

def encode (s : PairingSpec) : Json :=
  .obj [("microserviceId", .str s.microserviceId), ("tenantId", .str s.tenantId),
    ("configuration", s.configuration)]

def record : Record PairingSpec :=
  (fun microserviceId tenantId configuration => { microserviceId, tenantId, configuration })
  <$> .required "microserviceId" Decoder.string
  <*> .required "tenantId" Decoder.string
  <*> .defaulted "configuration" Decoder.any Configuration.empty

def decode : Decoder PairingSpec := record.ofObjectOrArray "TenantMicroserviceSpec"

def validate (s : PairingSpec) : Except Error Unit :=
  if s.tenantId.isEmpty || s.microserviceId.isEmpty then
    .error (.validation "tenantmicroservice requires both tenantId and microserviceId")
  else .ok ()

end PairingSpec
end TenantOperator
