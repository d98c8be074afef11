import DeployTarget.Definition.Basic

/-!
# Writing definitions

A definition is written as a choice: the tag of its kind, and a body with the details
and one entry for each slot of the kind.  What is absent is written as null.
-/

namespace DeployTarget

def Target.slotJson : Target → Slot → Json
  | .kubernetesAzure useClusterAdminCredentials, .useClusterAdminCredentials =>
      Field.optionToJson useClusterAdminCredentials
  | .pdc hosts _ _, .hosts => Field.optionToJson hosts
  | .pdc _ filter _, .hostFilter => (filter.map HostFilter.toJson).getD .null
  | .pdc _ _ attributes, .hostAttributes => Field.optionToJson attributes
  | .sshWinRmAws filter, .awsInstanceFilter => (filter.map InstanceFilter.toJson).getD .null
  | .sshWinRmAzure hostTags, .hostTags => Field.optionToJson hostTags
  | .elastigroup configuration, .configuration =>
      (configuration.map Configuration.toJson).getD .null
  | .customDeployment template _, .customDeploymentRef =>
      (template.map TemplateRef.toJson).getD .null
  | .customDeployment _ settings, .settings => .array (settings.map Variable.toJson)
  | _, _ => .null

namespace Definition

def slotJson (definition : Definition) : Slot → Json
  | .text name => Field.optionToJson (definition.text name)
  | slot => definition.target.slotJson slot

def toJson (definition : Definition) : Json :=
  .ofChoice definition.kind.tag
    (definition.details.entries ++
      definition.kind.slots.map fun slot => (slot.name, definition.slotJson slot))

end Definition

end DeployTarget
