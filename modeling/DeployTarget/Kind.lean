/-!
# Kinds of deployment targets

The closed set of kinds, the text attributes that a definition of each kind can
carry, and the facts about a kind that the rest of the library reads: how its
definitions are laid out, which parts its key is made of, and whether its fields may
come from a provisioner.
-/

namespace DeployTarget

/-- A text attribute of a definition. -/
inductive Attribute where
  | connectorRef
  | credentialsRef
  | kubeNamespace
  | cluster
  | releaseName
  | subscriptionId
  | resourceGroup
  | region
  | stage
  | project
  | organization
  | space
  | hostConnectionType
  | hostArrayPath
deriving DecidableEq, Repr

def Attribute.name : Attribute → String
  | .connectorRef => "connectorRef"
  | .credentialsRef => "credentialsRef"
  | .kubeNamespace => "namespace"
  | .cluster => "cluster"
  | .releaseName => "releaseName"
  | .subscriptionId => "subscriptionId"
  | .resourceGroup => "resourceGroup"
  | .region => "region"
  | .stage => "stage"
  | .project => "project"
  | .organization => "organization"
  | .space => "space"
  | .hostConnectionType => "hostConnectionType"
  | .hostArrayPath => "hostArrayPath"

/-- A place in the body of a definition, beside the details that all kinds share. -/
inductive Slot where
  | text (name : Attribute)
  | useClusterAdminCredentials
  | hosts
  | hostFilter
  | hostAttributes
  | awsInstanceFilter
  | hostTags
  | configuration
  | customDeploymentRef
  | settings
deriving DecidableEq, Repr

def Slot.name : Slot → String
  | .text name => name.name
  | .useClusterAdminCredentials => "useClusterAdminCredentials"
  | .hosts => "hosts"
  | .hostFilter => "hostFilter"
  | .hostAttributes => "hostAttributes"
  | .awsInstanceFilter => "awsInstanceFilter"
  | .hostTags => "tags"
  | .configuration => "configuration"
  | .customDeploymentRef => "customDeploymentRef"
  | .settings => "variables"

/-- A part of a key. -/
inductive KeyPart where
  | text (name : Attribute)
  | templateRef
  | versionLabel
  | infraIdentifier
deriving DecidableEq, Repr

/-- The name under which a part of a key is listed. -/
def KeyPart.name : KeyPart → String
  | .text name => name.name
  | .templateRef => "templateRef"
  | .versionLabel => "versionLabel"
  | .infraIdentifier => "infraIdentifier"

/-- A kind of deployment target. -/
inductive Kind where
  | kubernetesDirect
  | kubernetesGcp
  | kubernetesAzure
  | kubernetesAws
  | kubernetesRancher
  | serverlessAwsLambda
  | pdc
  | sshWinRmAws
  | sshWinRmAzure
  | azureWebApp
  | ecs
  | googleCloudFunctions
  | elastigroup
  | asg
  | customDeployment
  | tas
  | awsSam
  | awsLambda
deriving DecidableEq, Repr

namespace Kind

def all : List Kind :=
  [.kubernetesDirect, .kubernetesGcp, .kubernetesAzure, .kubernetesAws,
    .kubernetesRancher, .serverlessAwsLambda, .pdc, .sshWinRmAws, .sshWinRmAzure,
    .azureWebApp, .ecs, .googleCloudFunctions, .elastigroup, .asg, .customDeployment,
    .tas, .awsSam, .awsLambda]

/-- Every kind is listed. -/
theorem mem_all (kind : Kind) : kind ∈ all := by
  cases kind <;> decide

/-- The tag of a kind in a document. -/
def tag : Kind → String
  | .kubernetesDirect => "KubernetesDirect"
  | .kubernetesGcp => "KubernetesGcp"
  | .kubernetesAzure => "KubernetesAzure"
  | .kubernetesAws => "KubernetesAws"
  | .kubernetesRancher => "KubernetesRancher"
  | .serverlessAwsLambda => "ServerlessAwsLambda"
  | .pdc => "Pdc"
  | .sshWinRmAws => "SshWinRmAws"
  | .sshWinRmAzure => "SshWinRmAzure"
  | .azureWebApp => "AzureWebApp"
  | .ecs => "ECS"
  | .googleCloudFunctions => "GoogleCloudFunctions"
  | .elastigroup => "Elastigroup"
  | .asg => "Asg"
  | .customDeployment => "CustomDeployment"
  | .tas => "TAS"
  | .awsSam => "AWS_SAM"
  | .awsLambda => "AwsLambda"

def ofTag? (tag : String) : Option Kind :=
  all.find? (·.tag == tag)

/-- A tag leads back to its kind. -/
@[simp]
theorem ofTag?_tag (kind : Kind) : ofTag? kind.tag = some kind := by
  cases kind <;> decide

/-- Whether a kind is a Kubernetes cluster, whose targets share release names. -/
def isKubernetes : Kind → Bool
  | .kubernetesDirect | .kubernetesGcp | .kubernetesAzure | .kubernetesAws
  | .kubernetesRancher => true
  | _ => false

/-- Whether outcomes of a kind carry the short key too. -/
def hasShortKey : Kind → Bool
  | .kubernetesDirect => true
  | .kubernetesGcp => true
  | .kubernetesAzure => true
  | .kubernetesAws => true
  | .kubernetesRancher => true
  | _ => false

/-- The kinds with a short key are the clusters. -/
theorem hasShortKey_eq_isKubernetes (kind : Kind) : kind.hasShortKey = kind.isKubernetes := by
  cases kind <;> rfl

/-- Whether the fields of a kind may come from the output of a provisioner. -/
def supportsProvisioning : Kind → Bool
  | .elastigroup | .customDeployment => false
  | _ => true

/-- The slots of a kind, in the order in which a definition is written. -/
def slots : Kind → List Slot
  | .kubernetesDirect =>
      [.text .connectorRef, .text .kubeNamespace, .text .releaseName]
  | .kubernetesGcp | .kubernetesAws | .kubernetesRancher =>
      [.text .connectorRef, .text .kubeNamespace, .text .cluster, .text .releaseName]
  | .kubernetesAzure =>
      [.text .connectorRef, .text .kubeNamespace, .text .cluster, .text .releaseName,
        .text .subscriptionId, .text .resourceGroup, .useClusterAdminCredentials]
  | .serverlessAwsLambda => [.text .connectorRef, .text .region, .text .stage]
  | .pdc =>
      [.text .connectorRef, .text .credentialsRef, .hosts, .hostFilter,
        .text .hostArrayPath, .hostAttributes]
  | .sshWinRmAws =>
      [.text .connectorRef, .text .credentialsRef, .text .region,
        .text .hostConnectionType, .awsInstanceFilter]
  | .sshWinRmAzure =>
      [.text .connectorRef, .text .credentialsRef, .text .subscriptionId,
        .text .resourceGroup, .hostTags, .text .hostConnectionType]
  | .azureWebApp =>
      [.text .connectorRef, .text .subscriptionId, .text .resourceGroup]
  | .ecs => [.text .connectorRef, .text .region, .text .cluster]
  | .googleCloudFunctions => [.text .connectorRef, .text .region, .text .project]
  | .elastigroup => [.text .connectorRef, .configuration]
  | .asg | .awsSam | .awsLambda => [.text .connectorRef, .text .region]
  | .customDeployment => [.text .connectorRef, .customDeploymentRef, .settings]
  | .tas => [.text .connectorRef, .text .organization, .text .space]

def attributes (kind : Kind) : List Attribute :=
  kind.slots.filterMap fun slot => match slot with
    | .text name => some name
    | _ => none

/-- The parts of a kind's key, in the order in which they are listed for the kind. -/
def keyParts : Kind → List KeyPart
  | .kubernetesDirect => [.text .connectorRef, .text .kubeNamespace]
  | .kubernetesGcp | .kubernetesAws | .kubernetesRancher =>
      [.text .connectorRef, .text .cluster, .text .kubeNamespace]
  | .kubernetesAzure =>
      [.text .connectorRef, .text .subscriptionId, .text .resourceGroup,
        .text .cluster, .text .kubeNamespace]
  | .serverlessAwsLambda =>
      [.text .connectorRef, .text .region, .text .stage]
  | .pdc => [.text .credentialsRef, .text .connectorRef]
  | .sshWinRmAws =>
      [.text .connectorRef, .text .credentialsRef, .text .region]
  | .sshWinRmAzure =>
      [.text .connectorRef, .text .credentialsRef, .text .subscriptionId,
        .text .resourceGroup]
  | .azureWebApp =>
      [.text .connectorRef, .text .subscriptionId, .text .resourceGroup]
  | .ecs => [.text .connectorRef, .text .cluster, .text .region]
  | .googleCloudFunctions =>
      [.text .connectorRef, .text .project, .text .region]
  | .elastigroup => [.text .connectorRef]
  | .asg | .awsSam | .awsLambda => [.text .connectorRef, .text .region]
  | .customDeployment => [.templateRef, .versionLabel, .infraIdentifier]
  | .tas => [.text .connectorRef, .text .organization, .text .space]

def keyNames (kind : Kind) : List String :=
  kind.keyParts.map KeyPart.name

end Kind

end DeployTarget
