import TenantOperator.Resource.Container
import TenantOperator.Resource.Metadata
import TenantOperator.Resource.Selector

/-! Volumes of a pod, each filled from one source. -/
namespace TenantOperator
open Json (Record Decoder)

namespace VolumeSource

def localReference : Schema := .record "LocalObjectReference" (must .text ["name"])

def file : Schema := .record "KeyToPath" (must .text ["key", "path"] ++ may .int32 ["mode"])

def podFile : Schema :=
  .record "DownwardAPIVolumeFile"
    (may EnvVar.podField ["fieldRef"] ++ may .int32 ["mode"] ++ must .text ["path"]
      ++ may EnvVar.amount ["resourceFieldRef"])

def projection : Schema :=
  let bundle : Schema := .record "ClusterTrustBundleProjection"
    (may LabelSelector.schema ["labelSelector"] ++ may .text ["name", "signerName"]
      ++ may .flag ["optional"] ++ must .text ["path"])
  let named (name : String) : Schema :=
    .record name (may (.list file) ["items"] ++ must .text ["name"] ++ may .flag ["optional"])
  let token : Schema := .record "ServiceAccountTokenProjection"
    (may .text ["audience"] ++ may .int64 ["expirationSeconds"] ++ must .text ["path"])
  .record "VolumeProjection"
    (may bundle ["clusterTrustBundle"] ++ may (named "ConfigMapProjection") ["configMap"]
      ++ may (.record "DownwardAPIProjection" (may (.list podFile) ["items"])) ["downwardAPI"]
      ++ may (named "SecretProjection") ["secret"] ++ may token ["serviceAccountToken"])

/-- A volume that is claimed for the pod alone. -/
def claimTemplate : Schema :=
  let object (name : String) (parts : List Part) : Schema :=
    .record name (may .text ["apiGroup"] ++ must .text ["kind", "name"] ++ parts)
  let spec : Schema := .record "PersistentVolumeClaimSpec"
    (may .texts ["accessModes"] ++ may (object "TypedLocalObjectReference" []) ["dataSource"]
      ++ may (object "TypedObjectReference" (may .text ["namespace"])) ["dataSourceRef"]
      ++ may (.record "VolumeResourceRequirements" (may .textMap ["limits", "requests"]))
        ["resources"]
      ++ may LabelSelector.schema ["selector"]
      ++ may .text ["storageClassName", "volumeAttributesClassName", "volumeMode", "volumeName"])
  .record "PersistentVolumeClaimTemplate"
    (may (.of Metadata.encode Metadata.decode {}) ["metadata"] ++ must spec ["spec"])

/-- Sources within the cluster. -/
def inner : List Part :=
  [.object "csi" "CSIVolumeSource"
    (must .text ["driver"] ++ may .text ["fsType"] ++ may localReference ["nodePublishSecretRef"]
      ++ may .flag ["readOnly"] ++ may .textMap ["volumeAttributes"]),
   .object "downwardAPI" "DownwardAPIVolumeSource"
    (may .int32 ["defaultMode"] ++ may (.list podFile) ["items"]),
   .object "emptyDir" "EmptyDirVolumeSource" (may .text ["medium", "sizeLimit"]),
   .object "ephemeral" "EphemeralVolumeSource" (may claimTemplate ["volumeClaimTemplate"]),
   .object "hostPath" "HostPathVolumeSource" (must .text ["path"] ++ may .text ["type"]),
   .object "image" "ImageVolumeSource" (may .text ["pullPolicy", "reference"]),
   .object "nfs" "NFSVolumeSource" (must .text ["path", "server"] ++ may .flag ["readOnly"]),
   .object "persistentVolumeClaim" "PersistentVolumeClaimVolumeSource"
    (must .text ["claimName"] ++ may .flag ["readOnly"]),
   .object "projected" "ProjectedVolumeSource"
    (may .int32 ["defaultMode"] ++ may (.list projection) ["sources"]),
   .object "secret" "SecretVolumeSource"
    (may .int32 ["defaultMode"] ++ may (.list file) ["items"] ++ may .flag ["optional"]
      ++ may .text ["secretName"])]

/-- What most disks have. -/
def disk : List Part := may .text ["fsType"] ++ may .flag ["readOnly"]

def secret : List Part := may localReference ["secretRef"]

/-- Sources outside of the cluster: disks and file systems of others. -/
def outer : List Part :=
  [.object "awsElasticBlockStore" "AWSElasticBlockStoreVolumeSource"
    (disk ++ may .int32 ["partition"] ++ must .text ["volumeID"]),
   .object "azureDisk" "AzureDiskVolumeSource"
    (disk ++ may .text ["cachingMode", "kind"] ++ must .text ["diskName", "diskURI"]),
   .object "azureFile" "AzureFileVolumeSource"
    (may .flag ["readOnly"] ++ must .text ["secretName", "shareName"]),
   .object "cephfs" "CephFSVolumeSource"
    (must .texts ["monitors"] ++ may .text ["path", "secretFile", "user"]
      ++ may .flag ["readOnly"] ++ secret),
   .object "cinder" "CinderVolumeSource" (disk ++ secret ++ must .text ["volumeID"]),
   .object "fc" "FCVolumeSource"
    (disk ++ may .int32 ["lun"] ++ may .texts ["targetWWNs", "wwids"]),
   .object "flexVolume" "FlexVolumeSource"
    (disk ++ must .text ["driver"] ++ may .textMap ["options"] ++ secret),
   .object "flocker" "FlockerVolumeSource" (may .text ["datasetName", "datasetUUID"]),
   .object "gcePersistentDisk" "GCEPersistentDiskVolumeSource"
    (disk ++ may .int32 ["partition"] ++ must .text ["pdName"]),
   .object "gitRepo" "GitRepoVolumeSource"
    (may .text ["directory", "revision"] ++ must .text ["repository"]),
   .object "glusterfs" "GlusterfsVolumeSource"
    (must .text ["endpoints", "path"] ++ may .flag ["readOnly"]),
   .object "iscsi" "ISCSIVolumeSource"
    (disk ++ may .flag ["chapAuthDiscovery", "chapAuthSession"]
      ++ may .text ["initiatorName", "iscsiInterface"] ++ must .text ["iqn", "targetPortal"]
      ++ must .int32 ["lun"] ++ may .texts ["portals"] ++ secret),
   .object "photonPersistentDisk" "PhotonPersistentDiskVolumeSource"
    (may .text ["fsType"] ++ must .text ["pdID"]),
   .object "portworxVolume" "PortworxVolumeSource" (disk ++ must .text ["volumeID"]),
   .object "quobyte" "QuobyteVolumeSource"
    (may .text ["group", "tenant", "user"] ++ may .flag ["readOnly"]
      ++ must .text ["registry", "volume"]),
   .object "rbd" "RBDVolumeSource"
    (disk ++ must .text ["image"] ++ may .text ["keyring", "pool", "user"]
      ++ must .texts ["monitors"] ++ secret),
   .object "scaleIO" "ScaleIOVolumeSource"
    (disk ++ must .text ["gateway", "system"]
      ++ may .text ["protectionDomain", "storageMode", "storagePool", "volumeName"]
      ++ must localReference ["secretRef"] ++ may .flag ["sslEnabled"]),
   .object "storageos" "StorageOSVolumeSource"
    (disk ++ secret ++ may .text ["volumeName", "volumeNamespace"]),
   .object "vsphereVolume" "VsphereVirtualDiskVolumeSource"
    (may .text ["fsType", "storagePolicyID", "storagePolicyName"] ++ must .text ["volumePath"])]

end VolumeSource

/-- A ConfigMap as the source of a volume. -/
structure ConfigMapSource where
  name : String
  others : Details := []
  deriving DecidableEq

namespace ConfigMapSource

def encode (s : ConfigMapSource) : Json :=
  .ofFields (("name", some (.str s.name)) :: s.others.fields)

def decode : Decoder ConfigMapSource :=
  Record.ofObject "ConfigMapVolumeSource" ((fun name others => { name, others })
    <$> .orDefault "name" Decoder.string ""
    <*> Details.record (may .int32 ["defaultMode"] ++ may (.list VolumeSource.file) ["items"]
      ++ may .flag ["optional"]))

end ConfigMapSource

structure Volume where
  name : String
  configMap : Option ConfigMapSource := none
  others : Details := []
  deriving DecidableEq

namespace Volume

def encode (v : Volume) : Json :=
  .ofFields ([("configMap", v.configMap.map ConfigMapSource.encode), ("name", some (.str v.name))]
    ++ v.others.fields)

def decode : Decoder Volume :=
  Record.ofObject "Volume" ((fun configMap name others => { name, configMap, others })
    <$> .optional "configMap" ConfigMapSource.decode
    <*> .orDefault "name" Decoder.string ""
    <*> Details.record (VolumeSource.inner ++ VolumeSource.outer))

end Volume
end TenantOperator
