import TenantOperator.SortedMap

/-! Names, labels and constants of derived objects. Everything the operator writes is addressed by
a name computed from the ids of its owners. -/
namespace TenantOperator

abbrev Labels := SortedMap String String

namespace Naming

def tenantLabel : String := "devicechain.io/tenant"
def microserviceLabel : String := "devicechain.io/microservice"
def managedByLabel : String := "app.kubernetes.io/managed-by"
def manager : String := "dc-operator"

/-- Key of the single entry of an instance bundle. -/
def instanceEntry : String := "instance"

def servicePort : Nat := 8080

/-- What the routing layer makes of a matched path. -/
def forwardedPath : String := "/$2"

def instanceBundle (inst : String) : String := "dci-" ++ inst ++ "-config"

def tenantBundle (tenant : String) : String := "dct-" ++ tenant ++ "-config"

/-- The pairing, its workload and its endpoint share this name. -/
def pairing (tenant microservice : String) : String := "tms-" ++ tenant ++ "-" ++ microservice

def routingTable (inst tenant : String) : String := inst ++ "-" ++ tenant ++ "-ingress"

def routingPath (inst tenant area : String) : String :=
  "/" ++ inst ++ "/" ++ tenant ++ "/" ++ area ++ "(/|$)(.*)"

def tenantSelector (tenant : String) : Labels := .singleton tenantLabel tenant

def microserviceSelector (microservice : String) : Labels :=
  .singleton microserviceLabel microservice

/-- Labels by which a pairing's pods are found. -/
def pairingLabels (tenant microservice : String) : Labels :=
  (tenantSelector tenant).insert microserviceLabel microservice

/-- The mark of objects this operator wrote. -/
def managerLabels : Labels := .singleton managedByLabel manager

def managedLabels (tenant microservice : String) : Labels :=
  (pairingLabels tenant microservice).insert managedByLabel manager

end Naming
end TenantOperator
