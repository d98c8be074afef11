import DeployTarget.Definition.Part
import DeployTarget.Kind

/-!
# Definitions

A definition of a deployment target has the details that all kinds share, text
attributes, and what only its kind has.  An attribute that the kind does not know is
absent.
-/

namespace DeployTarget

/-- The kind of a definition, with what only that kind has. -/
inductive Target where
  | kubernetesDirect
  | kubernetesGcp
  | kubernetesAzure (useClusterAdminCredentials : Option (Field Bool))
  | kubernetesAws
  | kubernetesRancher
  | serverlessAwsLambda
  | pdc (hosts : Option (Field HostList)) (hostFilter : Option HostFilter)
      (hostAttributes : Option (Field Tags))
  | sshWinRmAws (filter : Option InstanceFilter)
  | sshWinRmAzure (hostTags : Option (Field Tags))
  | azureWebApp
  | ecs
  | googleCloudFunctions
  | elastigroup (configuration : Option Configuration)
  | asg
  | customDeployment (template : Option TemplateRef) (settings : List Variable)
  | tas
  | awsSam
  | awsLambda
deriving DecidableEq

def Target.kind : Target → Kind
  | .kubernetesDirect => .kubernetesDirect
  | .kubernetesGcp => .kubernetesGcp
  | .kubernetesAzure _ => .kubernetesAzure
  | .kubernetesAws => .kubernetesAws
  | .kubernetesRancher => .kubernetesRancher
  | .serverlessAwsLambda => .serverlessAwsLambda
  | .pdc _ _ _ => .pdc
  | .sshWinRmAws _ => .sshWinRmAws
  | .sshWinRmAzure _ => .sshWinRmAzure
  | .azureWebApp => .azureWebApp
  | .ecs => .ecs
  | .googleCloudFunctions => .googleCloudFunctions
  | .elastigroup _ => .elastigroup
  | .asg => .asg
  | .customDeployment _ _ => .customDeployment
  | .tas => .tas
  | .awsSam => .awsSam
  | .awsLambda => .awsLambda

/-- A definition of a deployment target. -/
structure Definition where
  details : Details
  text : Attribute → Option (Field String)
  target : Target

namespace Definition

def kind (definition : Definition) : Kind :=
  definition.target.kind

/-- Whether fields come from the output of a provisioner: the definition says so and
its kind allows it. -/
def isDynamic (definition : Definition) : Bool :=
  definition.kind.supportsProvisioning && definition.details.provisioned

def connectorRef (definition : Definition) : Option (Field String) :=
  definition.text .connectorRef

def setText (definition : Definition) (name : Attribute) (field : Option (Field String)) :
    Definition :=
  { definition with
    text := fun other => if other = name then field else definition.text other }

end Definition

end DeployTarget
