import DeployTarget.Ambient
import DeployTarget.Definition.Basic
import DeployTarget.Expression.Mode

/-!
# Checking definitions

A definition is checked before anything is asked for.  First no scanned field may be
an expression without a value, then the required fields must be there, and last come
the rules of the kind.  The first failure counts.
-/

namespace DeployTarget

/-- What a required field must carry. -/
inductive Presence where
  /-- A value; where fields come from a provisioner, an expression will do. -/
  | value
  | valueOrExpression
deriving DecidableEq, Repr

namespace Validation

/-- Fails at the first expression that has no value. -/
def ensureResolved (unresolved : List (Option String)) : Except Error Unit :=
  match unresolved.findSome? id with
  | some text => .error (.invalidRequest (.unresolvedExpression text))
  | none => .ok ()

/-- Fails at the first expression that has no value, unless values come from a
provisioner. -/
def ensureProvisionedResolved (dynamic : Bool) (unresolved : List (Option String)) :
    Except Error Unit :=
  if dynamic then .ok () else ensureResolved unresolved

def violation? {α : Type} [FieldValue α] (dynamic : Bool) (field : Option (Field α))
    (name : String) (presence : Presence) : Option Violation :=
  match field.bind Field.value?, field with
  | some value, _ =>
      if FieldValue.isInputMarker value then some (.notProvided name)
      else if FieldValue.isBlank value then some (.empty name)
      else none
  | none, some (.expression text) =>
      if Field.isRuntimeInputText text then some (.notProvided name)
      else if presence = .value ∧ dynamic = false then some (.empty name)
      else none
  | none, some _ => some (.notProvided name)
  | none, none => some (.empty name)

/-- Fails if a field that must be present is absent, blank or waits for input. -/
def require {α : Type} [FieldValue α] (dynamic : Bool) (field : Option (Field α))
    (name : String) (presence : Presence) : Except Error Unit :=
  match violation? dynamic field name presence with
  | some violation => .error (.violation violation)
  | none => .ok ()

/-- Fails if both of two alternatives are expressions without values. -/
def requireOneResolvable (first second : Option String) : Except Error Unit :=
  match first, second with
  | some first, some second => .error (.invalidRequest (.unresolvedExpressions first second))
  | _, _ => .ok ()

def requirePart {α : Type} (part : Option α) (violation : Violation) : Except Error Unit :=
  match part with
  | some _ => .ok ()
  | none => .error (.violation violation)

/-- Whether a field carries a value that is not blank, or an expression. -/
def hasValueOrExpression {α : Type} [FieldValue α] : Option (Field α) → Bool
  | some (.literal value) => !FieldValue.isBlank value && !FieldValue.isInputMarker value
  | some (.resolved _ value) => !FieldValue.isBlank value && !FieldValue.isInputMarker value
  | some (.expression text) => !Field.isRuntimeInputText text
  | some .pending => false
  | none => false

def expressionText? (text : String) : Option String :=
  if Field.isExpressionText text then some text else none

end Validation

/-- An attribute that a kind demands. -/
structure Requirement where
  name : Attribute
  /-- The name under which it is missed. -/
  label : String
  presence : Presence

namespace Kind

/-- The attributes that must be resolved in every definition. -/
def scanned : Kind → List Attribute
  | .pdc => [.credentialsRef]
  | .sshWinRmAws => [.connectorRef, .credentialsRef, .hostConnectionType]
  | .sshWinRmAzure => [.connectorRef, .credentialsRef]
  | _ => [.connectorRef]

/-- The attributes that must be resolved unless they come from a provisioner. -/
def scannedWhenStatic : Kind → List Attribute
  | .kubernetesDirect => [.kubeNamespace]
  | .kubernetesGcp | .kubernetesAws | .kubernetesRancher => [.kubeNamespace, .cluster]
  | .kubernetesAzure => [.kubeNamespace, .cluster, .subscriptionId, .resourceGroup]
  | .serverlessAwsLambda => [.region, .stage]
  | .sshWinRmAws | .asg | .awsSam | .awsLambda => [.region]
  | .sshWinRmAzure | .azureWebApp => [.subscriptionId, .resourceGroup]
  | .ecs => [.cluster, .region]
  | .googleCloudFunctions => [.project, .region]
  | .tas => [.organization, .space]
  | .pdc | .elastigroup | .customDeployment => []

/-- An attribute that must have a value. -/
def demand (name : Attribute) : Requirement :=
  ⟨name, name.name, .value⟩

/-- An attribute that must have a value or an expression. -/
def expect (name : Attribute) : Requirement :=
  ⟨name, name.name, .valueOrExpression⟩

/-- The attributes that a kind demands, in the order in which they are missed. -/
def requirements : Kind → List Requirement
  | .kubernetesDirect => [demand .kubeNamespace, expect .releaseName]
  | .kubernetesGcp | .kubernetesAws | .kubernetesRancher =>
      [demand .kubeNamespace, expect .releaseName, demand .cluster]
  | .kubernetesAzure =>
      [demand .kubeNamespace, expect .releaseName, demand .cluster,
        ⟨.subscriptionId, "subscription", .value⟩, demand .resourceGroup]
  | .serverlessAwsLambda => [demand .region, expect .stage]
  | .pdc => [expect .credentialsRef]
  | .sshWinRmAws =>
      [expect .credentialsRef, expect .connectorRef, expect .region,
        expect .hostConnectionType]
  | .sshWinRmAzure =>
      [expect .connectorRef, expect .subscriptionId, expect .resourceGroup,
        expect .credentialsRef]
  | .azureWebApp =>
      [demand .connectorRef, ⟨.subscriptionId, "subscription", .value⟩,
        demand .resourceGroup]
  | .ecs => [expect .connectorRef, expect .cluster, expect .region]
  | .googleCloudFunctions => [expect .connectorRef, expect .project, expect .region]
  | .elastigroup => [expect .connectorRef]
  | .asg | .awsSam => [expect .connectorRef, expect .region]
  | .awsLambda => [demand .region]
  | .tas =>
      [expect .connectorRef, ⟨.organization, "Organization", .valueOrExpression⟩,
        ⟨.space, "Space", .valueOrExpression⟩]
  | .customDeployment => []

/-- The entry of a kind in the table of kinds. -/
def registered (kind : Kind) : Except Error Kind :=
  match all.find? (· = kind) with
  | some entry => .ok entry
  | none => .error (.unknownKind kind.tag)

/-- Every kind is in the table, under itself. -/
theorem registered_eq_ok (kind : Kind) : kind.registered = .ok kind := by
  unfold registered
  cases found : all.find? (· = kind) with
  | none => exact absurd (decide_eq_true rfl) (List.find?_eq_none.mp found kind kind.mem_all)
  | some entry =>
      have same := List.find?_some found
      exact congrArg Except.ok (of_decide_eq_true same)

end Kind

namespace Definition

open Validation

/-- The text of an attribute that is an expression without a value. -/
def unresolved? (definition : Definition) (name : Attribute) : Option String :=
  (definition.text name).bind Field.unresolved?

def checkTemplate (definition : Definition) : Except Error Unit :=
  match definition.target with
  | .customDeployment none _ => .error (.violation (.null Slot.customDeploymentRef.name))
  | _ => .ok ()

/-- The texts beside the attributes that must be resolved in every definition. -/
def scannedTexts (definition : Definition) : List (Option String) :=
  match definition.target with
  | .customDeployment (some reference) _ =>
      [expressionText? reference.template, expressionText? reference.version]
  | _ => []

/-- Two alternatives of which one must be resolved. -/
def checkAlternatives (definition : Definition) : Except Error Unit :=
  match definition.target with
  | .pdc hosts _ _ =>
      requireOneResolvable (hosts.bind Field.unresolved?)
        (definition.unresolved? .connectorRef)
  | _ => .ok ()

def scan (definition : Definition) (dynamic : Bool) : Except Error Unit := do
  definition.checkTemplate
  ensureResolved
    (definition.kind.scanned.map definition.unresolved? ++ definition.scannedTexts)
  ensureProvisionedResolved dynamic
    (definition.kind.scannedWhenStatic.map definition.unresolved?)
  definition.checkAlternatives

def checkRequirement (definition : Definition) (dynamic : Bool)
    (requirement : Requirement) : Except Error Unit :=
  require dynamic (definition.text requirement.name) requirement.label
    requirement.presence

/-- The rules of host pools.  Provisioned hosts are named by one of their attributes;
other pools have hosts or a connector. -/
def checkHosts (definition : Definition) (dynamic : Bool) (hosts : Option (Field HostList))
    (attributes : Option (Field Tags)) : Except Error Unit :=
  if dynamic then do
    require dynamic (definition.text .hostArrayPath) Attribute.hostArrayPath.name
      .valueOrExpression
    require dynamic attributes Slot.hostAttributes.name .value
    if (attributes.bind Field.value?).any (·.contains hostnameAttribute) then .ok ()
    else .error (.invalidRequest .hostnameNotMapped)
  else if hasValueOrExpression hosts || hasValueOrExpression (definition.text .connectorRef)
  then .ok ()
  else
    .error (.invalidArguments
      [.empty Slot.hosts.name, .empty Attribute.connectorRef.name])

/-- The rules that only one kind has. -/
def checkTarget (definition : Definition) (dynamic : Bool) : Except Error Unit :=
  match definition.target with
  | .pdc hosts _ attributes => definition.checkHosts dynamic hosts attributes
  | .sshWinRmAws filter => requirePart filter (.null Slot.awsInstanceFilter.name)
  | .elastigroup configuration =>
      requirePart configuration (.empty Slot.configuration.name)
  | .customDeployment (some reference) _ =>
      if reference.template = "" then .error (.violation (.empty KeyPart.templateRef.name))
      else .ok ()
  | _ => .ok ()

def loggedNamespace? (definition : Definition) : Option String :=
  if definition.kind.isKubernetes then
    ((definition.text .kubeNamespace).bind Field.value?).filter (· ≠ "")
  else none

def logNamespace (definition : Definition) : Program Unit :=
  match definition.loggedNamespace? with
  | some name => Program.tell .info ("Kubernetes Namespace: " ++ name) []
  | none => pure ()

def check (definition : Definition) (dynamic : Bool) : Program Unit := do
  Program.ofExcept (definition.scan dynamic)
  definition.logNamespace
  Program.ofExcept do
    definition.kind.requirements.forM (definition.checkRequirement dynamic)
    definition.checkTarget dynamic

/-! ## Dispatch -/

/-- Fails unless a definition is of the kind whose rules are applied to it. -/
def ensureKind (definition : Definition) (kind : Kind) : Except Error Unit :=
  if definition.kind = kind then .ok ()
  else .error (.invalidRequest (.otherKind kind definition.kind))

theorem ensureKind_kind (definition : Definition) :
    definition.ensureKind definition.kind = .ok () :=
  if_pos rfl

/-- The rules of a kind applied to a definition of any kind. -/
def checkAs (definition : Definition) (kind : Kind) (dynamic : Bool) : Program Unit := do
  Program.ofExcept (definition.ensureKind kind)
  definition.check dynamic

/-- The rules of its own kind are applied to a definition. -/
theorem checkAs_kind (definition : Definition) (dynamic : Bool) :
    definition.checkAs definition.kind dynamic = definition.check dynamic := by
  rw [checkAs, ensureKind_kind]
  rfl

/-- Checks a definition by the rules that the table of kinds has for it. -/
def validate (definition : Definition) (environment : Environment) : Program Unit := do
  Program.tell .info
    ("Infrastructure Name: " ++ definition.details.name ++ " , Identifier: " ++
      definition.details.identifier)
    [("environment", environment.identifier)]
  let kind ← Program.ofExcept definition.kind.registered
  definition.checkAs kind definition.isDynamic

/-- The table of kinds has rules for every definition, and they are those of its own kind. -/
theorem validate_eq (definition : Definition) (environment : Environment) :
    definition.validate environment = (do
      Program.tell .info
        ("Infrastructure Name: " ++ definition.details.name ++ " , Identifier: " ++
          definition.details.identifier)
        [("environment", environment.identifier)]
      definition.check definition.isDynamic) := by
  rw [validate, Kind.registered_eq_ok, ← checkAs_kind]
  rfl

end Definition

def validateOptional (definition : Option Definition) (environment : Environment) :
    Program Unit :=
  match definition with
  | some definition => definition.validate environment
  | none => .fail (.invalidRequest .missingDefinition)

end DeployTarget
