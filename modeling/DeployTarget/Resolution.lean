import DeployTarget.HostPool
import DeployTarget.Outcome
import DeployTarget.Validation

/-!
# Resolving definitions

A definition that passes its checks is read field by field.  Some fields are taken as
they are written, others come from a provisioner if the definition says so.  The texts
that were read make up the key and the outcome; at the end the connector is asked for
its name, and a connector that is not found is no failure.
-/

namespace DeployTarget

/-- What a definition is resolved in. -/
structure Surroundings where
  scope : Scope
  environment : Environment
  service : Option Service
  /-- The tags of the caller, which win over those of the definition. -/
  tags : Tags

namespace Field

def rejectPending {α : Type} (field : Field α) (name : String) : Except Error Unit :=
  if field.isPending then .error (.invalidRequest (.runtimeInput name)) else .ok ()

/-- The text of a field as it is written: its value or its expression. -/
def plain (field : Option (Field String)) (name : String) : Program (Option String) :=
  match field with
  | none => pure none
  | some field => do
      Program.ofExcept (field.rejectPending name)
      return field.valueOrExpression?

/-- The text of a field, which comes from a provisioner in a dynamic definition. -/
def provisioned (dynamic : Bool) (field : Option (Field String)) (name : String)
    (mode : Mode) : Program (Option String) :=
  if dynamic then
    match field with
    | none => pure none
    | some field => do
        Program.ofExcept (field.rejectPending name)
        Program.stopIfCancelled
        let resolved ← field.resolve mode
        return resolved.bind valueOrExpression?
  else plain field name

def provisionedText (dynamic : Bool) (field : Option (Field String)) (name : String)
    (mode : Mode) : Program String := do
  let text ← provisioned dynamic field name mode
  return text.getD ""

/-- The value of a field that is no text; an expression has none in a definition that
is not dynamic. -/
def provisionedValue {α : Type} [FieldValue α] (dynamic : Bool)
    (field : Option (Field α)) (name : String) (mode : Mode) : Program (Option α) :=
  match field with
  | none => pure none
  | some field => do
      Program.ofExcept (field.rejectPending name)
      if dynamic then
        Program.stopIfCancelled
        field.evaluate mode
      else return field.value?

/-- The release name: that of the service, or else that of the definition. -/
def releaseName (dynamic : Bool) (service : Option Service)
    (field : Option (Field String)) : Program String :=
  match service.bind Service.release? with
  | some release => pure release
  | none => provisionedText dynamic field Attribute.releaseName.name .keep

end Field

/-- How the text of an attribute is read. -/
inductive Manner where
  /-- As it is written, and empty where it is absent. -/
  | plain
  /-- As it is written, and left out where it is absent. -/
  | plainOrAbsent
  /-- As it is written, and left out where it is absent or empty. -/
  | plainOrBlank
  /-- From a provisioner in a dynamic definition, and empty where it is absent. -/
  | provisioned
  | release
deriving DecidableEq, Repr

/-- An attribute and how it is read. -/
structure Reading where
  name : Attribute
  manner : Manner
deriving DecidableEq, Repr

/-- The texts that have been read. -/
abbrev Texts :=
  List (Attribute × String)

def Reading.read (reading : Reading) (surroundings : Surroundings)
    (definition : Definition) (dynamic : Bool) : Program (Option String) := do
  let field := definition.text reading.name
  let name := reading.name.name
  match reading.manner with
  | .plain => do
      let text ← Field.plain field name
      return some (text.getD "")
  | .plainOrAbsent => Field.plain field name
  | .plainOrBlank => do
      let text ← Field.plain field name
      return text.filter (· ≠ "")
  | .provisioned => some <$> Field.provisionedText dynamic field name .strict
  | .release => some <$> Field.releaseName dynamic surroundings.service field

def Reading.readAll (surroundings : Surroundings) (definition : Definition)
    (dynamic : Bool) : List Reading → Program Texts
  | [] => pure []
  | reading :: rest => do
      let text ← reading.read surroundings definition dynamic
      let texts ← readAll surroundings definition dynamic rest
      return (text.map fun text => (reading.name, text)).toList ++ texts

namespace Kind

/-- The attributes of a kind that are read, in order, before anything else. -/
def readings : Kind → List Reading
  | .kubernetesDirect =>
      [⟨.connectorRef, .plain⟩, ⟨.kubeNamespace, .provisioned⟩, ⟨.releaseName, .release⟩]
  | .kubernetesGcp | .kubernetesAws | .kubernetesRancher =>
      [⟨.connectorRef, .plain⟩, ⟨.kubeNamespace, .provisioned⟩, ⟨.cluster, .provisioned⟩,
        ⟨.releaseName, .release⟩]
  | .kubernetesAzure =>
      [⟨.connectorRef, .plain⟩, ⟨.kubeNamespace, .provisioned⟩, ⟨.cluster, .provisioned⟩,
        ⟨.releaseName, .release⟩, ⟨.subscriptionId, .provisioned⟩,
        ⟨.resourceGroup, .provisioned⟩]
  | .serverlessAwsLambda =>
      [⟨.connectorRef, .plain⟩, ⟨.region, .provisioned⟩, ⟨.stage, .provisioned⟩]
  | .pdc => [⟨.credentialsRef, .plain⟩, ⟨.connectorRef, .plainOrBlank⟩]
  | .sshWinRmAws =>
      [⟨.connectorRef, .plain⟩, ⟨.credentialsRef, .plain⟩, ⟨.region, .provisioned⟩]
  | .sshWinRmAzure =>
      [⟨.connectorRef, .plain⟩, ⟨.credentialsRef, .plain⟩,
        ⟨.subscriptionId, .provisioned⟩, ⟨.resourceGroup, .provisioned⟩]
  | .azureWebApp =>
      [⟨.connectorRef, .plain⟩, ⟨.subscriptionId, .provisioned⟩,
        ⟨.resourceGroup, .provisioned⟩]
  | .ecs => [⟨.connectorRef, .plain⟩, ⟨.region, .provisioned⟩, ⟨.cluster, .provisioned⟩]
  | .googleCloudFunctions =>
      [⟨.connectorRef, .plain⟩, ⟨.region, .provisioned⟩, ⟨.project, .provisioned⟩]
  | .elastigroup => [⟨.connectorRef, .plain⟩]
  | .asg | .awsSam | .awsLambda => [⟨.connectorRef, .plain⟩, ⟨.region, .provisioned⟩]
  | .customDeployment => []
  | .tas =>
      [⟨.connectorRef, .plain⟩, ⟨.organization, .provisioned⟩, ⟨.space, .provisioned⟩]

/-- What identifies a place in a cluster: the connector, the cluster where the kind
names one, and the namespace. -/
def clusterDigest (namesCluster : Bool) : List KeyPart :=
  if namesCluster then [.text .connectorRef, .text .cluster, .text .kubeNamespace]
  else [.text .connectorRef, .text .kubeNamespace]

def regionDigest : List KeyPart :=
  [.text .connectorRef, .text .region]

/-- The parts that resolving a definition of a kind digests into the key, in order. -/
def digested : Kind → List KeyPart
  | .kubernetesDirect => clusterDigest false
  | .kubernetesGcp | .kubernetesAws | .kubernetesRancher => clusterDigest true
  | .kubernetesAzure =>
      [.text .connectorRef, .text .subscriptionId, .text .resourceGroup, .text .cluster,
        .text .kubeNamespace]
  | .serverlessAwsLambda => [.text .connectorRef, .text .region, .text .stage]
  | .pdc => [.text .credentialsRef, .text .connectorRef]
  | .sshWinRmAws => [.text .connectorRef, .text .credentialsRef, .text .region]
  | .sshWinRmAzure =>
      [.text .connectorRef, .text .credentialsRef, .text .subscriptionId,
        .text .resourceGroup]
  | .azureWebApp => [.text .connectorRef, .text .subscriptionId, .text .resourceGroup]
  | .ecs => [.text .connectorRef, .text .cluster, .text .region]
  | .googleCloudFunctions => [.text .connectorRef, .text .project, .text .region]
  | .elastigroup => [.text .connectorRef]
  | .asg | .awsSam | .awsLambda => regionDigest
  | .customDeployment => [.templateRef, .versionLabel, .infraIdentifier]
  | .tas => [.text .connectorRef, .text .organization, .text .space]

end Kind

namespace Definition

def template? (definition : Definition) : Option TemplateRef :=
  match definition.target with
  | .customDeployment reference _ => reference
  | _ => none

/-- The text of a part of the key; an attribute that was not read adds none. -/
def keyText? (definition : Definition) (texts : Texts) : KeyPart → Option String
  | .text name => texts.lookup name
  | .templateRef => some ((definition.template?.map TemplateRef.template).getD "")
  | .versionLabel => some ((definition.template?.map TemplateRef.version).getD "")
  | .infraIdentifier => some definition.details.identifier

/-- The key of the target, from the texts that were read. -/
def key (definition : Definition) (surroundings : Surroundings) (texts : Texts) : Key :=
  Key.generate (surroundings.service.map Service.identifier)
    surroundings.environment.identifier
    (definition.kind.digested.filterMap (definition.keyText? texts))

def common (definition : Definition) (surroundings : Surroundings) (texts : Texts) :
    Outcome.Common where
  environment := surroundings.environment
  service := surroundings.service
  key := definition.key surroundings texts
  showsShortKey := definition.kind.hasShortKey
  identifier := definition.details.identifier
  name := definition.details.name
  tags := definition.details.tags.overlay surroundings.tags
  connector := none

/-- The attributes that an outcome reports, in order; a provisioned pool reports
neither the connector nor the place of its hosts. -/
def reported (definition : Definition) (dynamic : Bool) : List Attribute :=
  if definition.kind = .pdc ∧ dynamic then [.credentialsRef] else definition.kind.attributes

/-- The outcome with the texts that were read and what only its kind has. -/
def outcome (definition : Definition) (surroundings : Surroundings) (dynamic : Bool)
    (texts : Texts) (extra : Outcome.Extra) : Outcome where
  kind := definition.kind
  common := definition.common surroundings texts
  texts := (definition.reported dynamic).filterMap fun name =>
    (texts.lookup name).map fun text => (name, text)
  extra := extra

/-- Keeps the hosts among numbered host objects, and logs the others. -/
def keepHosts (mapping : Tags) : Nat → List Json → Program (List HostPool.Host)
  | _, [] => pure []
  | index, object :: rest =>
      match HostPool.host? mapping object with
      | some host => do
          let hosts ← keepHosts mapping (index + 1) rest
          return host :: hosts
      | none => do
          Program.tell .warn
            ("provisioned host has no " ++ hostnameAttribute ++ ", skipping")
            [("index", (Number.int index).text)]
          keepHosts mapping (index + 1) rest

def readHosts (definition : Definition) (attributes : Option (Field Tags)) :
    Program (List HostPool.Host) := do
  let path ← Field.plain (definition.text .hostArrayPath) Attribute.hostArrayPath.name
  let path := path.getD ""
  let mapping ←
    Field.provisionedValue true attributes Slot.hostAttributes.name .strict
  Program.stopIfCancelled
  let objects ← Program.hostObjects (HostPool.arrayExpression path)
  Program.tell .debug "provisioned host objects"
    [("path", path), ("count", (Number.int objects.length).text)]
  keepHosts (mapping.getD .empty) 0 objects

def readVariables : List Variable → Program (List (String × String))
  | [] => pure []
  | entry :: rest => do
      let text ← Field.plain entry.value entry.name
      let texts ← readVariables rest
      return (entry.name, text.getD "") :: texts

/-- The text that names the way to reach hosts. -/
def readConnectionType (surroundings : Surroundings) (definition : Definition)
    (dynamic : Bool) : Program Texts :=
  Reading.readAll surroundings definition dynamic [⟨.hostConnectionType, .plainOrAbsent⟩]

/-- Reads what only a kind has, behind the texts of its attributes. -/
def readTarget (definition : Definition) (surroundings : Surroundings) (dynamic : Bool)
    (texts : Texts) : Program Outcome := do
  let outcome := definition.outcome surroundings dynamic
  match definition.target with
  | .kubernetesAzure flag =>
      return outcome texts (.clusterAdmin ((flag.bind Field.value?).getD false))
  | .pdc hosts filter attributes =>
      let selection := HostFilter.selection filter
      if dynamic then
        let hosts ← definition.readHosts attributes
        return outcome texts
          (.provisionedPool (hosts.map (·.name)) (hosts.map (·.attributes)) selection)
      else
        let hosts := ((hosts.bind Field.value?).map HostList.split).getD []
        return outcome texts (.pool hosts selection)
  | .sshWinRmAws filter =>
      let tags ← Field.provisionedValue dynamic (filter.bind (·.tags))
        "awsInstanceFilter.tags" .drop
      let connection ← readConnectionType surroundings definition dynamic
      return outcome (texts ++ connection) (.instances tags)
  | .sshWinRmAzure hostTags =>
      let tags ← Field.provisionedValue dynamic hostTags Slot.hostTags.name .drop
      let connection ← readConnectionType surroundings definition dynamic
      return outcome (texts ++ connection) (.instances tags)
  | .customDeployment reference settings =>
      let values ← readVariables settings
      return outcome texts
        (.template (reference.getD ⟨"", ""⟩) (OrderedMap.ofList values))
  | _ => return outcome texts .none

/-- Resolves a definition that has been checked, but for its connector. -/
def resolveFields (definition : Definition) (surroundings : Surroundings)
    (dynamic : Bool) : Program Outcome := do
  let texts ← Reading.readAll surroundings definition dynamic definition.kind.readings
  definition.readTarget surroundings dynamic texts

end Definition

/-- The name of the connector that a field refers to.  Only a reference with a value is
looked up, and neither a failing store nor an unknown connector is a failure. -/
def connectorName (scope : Scope) (reference : Option (Field String)) :
    Program (Option String) :=
  match (reference.bind Field.value?).filter (· ≠ "") with
  | none => pure none
  | some reference => do
      match ← Program.askConnector ⟨scope, reference⟩ with
      | .ok (some connector) => return some connector.label
      | .ok none =>
          Program.tell .debug "connector not found, outcome left without connector"
            [("connector", reference)]
          return none
      | .error fault =>
          Program.tell .warn "connector lookup failed"
            [("connector", reference), ("error", fault.message)]
          return none

namespace Definition

/-- Adds the name of the connector to an outcome, if the definition refers to one. -/
def addConnector (definition : Definition) (surroundings : Surroundings)
    (outcome : Outcome) : Program Outcome :=
  match definition.connectorRef.bind Field.value? with
  | none => pure outcome
  | some _ => do
      Program.stopIfCancelled
      let name ← connectorName surroundings.scope definition.connectorRef
      return { outcome with common := { outcome.common with connector := name } }

/-- Resolves a definition of any kind by the rules of one kind. -/
def resolveAs (definition : Definition) (kind : Kind) (surroundings : Surroundings)
    (dynamic : Bool) : Program Outcome := do
  Program.ofExcept (definition.ensureKind kind)
  definition.resolveFields surroundings dynamic

theorem resolveAs_kind (definition : Definition) (surroundings : Surroundings)
    (dynamic : Bool) :
    definition.resolveAs definition.kind surroundings dynamic =
      definition.resolveFields surroundings dynamic := by
  rw [resolveAs, ensureKind_kind]
  rfl

/-- Checks a definition, and resolves it by the rules that the table of kinds has for it. -/
def resolve (definition : Definition) (surroundings : Surroundings) : Program Outcome := do
  definition.validate surroundings.environment
  let kind ← Program.ofExcept definition.kind.registered
  Program.tell .debug "resolving infrastructure"
    [("kind", definition.kind.tag), ("infra", definition.details.identifier),
      ("dynamic", if definition.isDynamic then "true" else "false")]
  let outcome ← definition.resolveAs kind surroundings definition.isDynamic
  let outcome ← definition.addConnector surroundings outcome
  Program.tell .debug "infrastructure resolved" [("key", outcome.common.key.text)]
  return outcome

/-- The table of kinds has rules for every definition, and they are those of its own kind. -/
theorem resolve_eq (definition : Definition) (surroundings : Surroundings) :
    definition.resolve surroundings = (do
      definition.validate surroundings.environment
      Program.tell .debug "resolving infrastructure"
        [("kind", definition.kind.tag), ("infra", definition.details.identifier),
          ("dynamic", if definition.isDynamic then "true" else "false")]
      let outcome ← definition.resolveFields surroundings definition.isDynamic
      let outcome ← definition.addConnector surroundings outcome
      Program.tell .debug "infrastructure resolved" [("key", outcome.common.key.text)]
      return outcome) := by
  rw [resolve, Kind.registered_eq_ok, ← resolveAs_kind]
  rfl

end Definition

end DeployTarget
