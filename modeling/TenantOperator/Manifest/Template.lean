import TenantOperator.Resource.Basic
import TenantOperator.Yaml.Writer

/-! Configuration templates as manifests, for whoever packages an instance or a microservice. -/
namespace TenantOperator
namespace Manifest

def instanceTemplate (id : String) (configuration : Configuration) : InstanceTemplate where
  metadata := { name := some id }
  content := { configuration }

def microserviceTemplateOf (id area image : String) (configuration : Configuration) :
    MicroserviceTemplate where
  metadata := { name := some id }
  content := { functionalArea := area, image, configuration }

def manifest {k : Kind} (r : Resource k) : String := Yaml.document r.encode

end Manifest
end TenantOperator
