import DeployTarget.Definition.Basic
import DeployTarget.Error
import DeployTarget.Source

/-!
# Reading definitions

A definition is a choice: a record with the tag of a kind under `type` and a body
under `spec`.  A body that is written before its tag is held back until the tag is
known.  Unknown fields count for nothing, but their values, and the details that all
kinds share, are held back too.
-/

namespace DeployTarget

open Source Source.Typed

/-- The field that tells which of several forms a choice has. -/
def Choice.tagName : String :=
  "type"

def Choice.bodyName : String :=
  "spec"

/-- Reads a choice by reading its body for its tag; a choice that is written as a
list has both parts. -/
def Choice.read? {ν α : Type} [Typed ν]
    (readBody : {μ : Type} → [Typed μ] → String → Option μ → Option α) (data : ν) :
    Option α := do
  let entries ← record? [tagName, bodyName] data
  match items? data, entries with
  | some [_], _ => none
  | _, (first, value) :: rest =>
      if first = tagName then
        let tag ← constant? value
        readBody tag (rest.lookup bodyName)
      else
        let body ← held? value
        let tag ← rest.lookup tagName >>= constant?
        readBody tag (some body)
  | _, [] => none

section Parts

variable {ν : Type} [Typed ν]

def Field.read? {α : Type} [FieldValue α] (data : ν) : Option (Field α) := do
  let raw ← json? data
  (Field.ofJson raw.canonical).toOption

def Field.readOptional? {α : Type} [FieldValue α] (entries : List (String × ν))
    (name : String) : Option (Option (Field α)) :=
  optional none (option? Field.read?) entries name

def Details.names : List String :=
  ["infraIdentifier", "infraName", "tags", "dynamicallyProvisioned",
    "provisionerStepIdentifier"]

def Details.ofEntries? (entries : List (String × ν)) : Option Details := do
  let entries ← single? (entries.filter fun entry => entry.1 ∈ names)
  let identifier ← optional "" text? entries "infraIdentifier"
  let name ← optional "" text? entries "infraName"
  let tags ← optional .empty tags? entries "tags"
  let provisioned ← optional false flag? entries "dynamicallyProvisioned"
  let step ← optional none (option? text?) entries "provisionerStepIdentifier"
  return ⟨identifier, name, tags, provisioned, step⟩

def Details.read? (data : ν) : Option Details :=
  record? names data >>= Details.ofEntries?

def HostFilter.readBody? (tag : String) (body : Option ν) : Option HostFilter := do
  match ← Way.ofName? tag with
  | .all => if body.all isNull then some .all else none
  | .names =>
      let entries ← body >>= body? ["value"]
      .names <$> required Field.read? entries "value"
  | .attributes =>
      let entries ← body >>= body? ["value"]
      .attributes <$> required Field.read? entries "value"

def HostFilter.read? (data : ν) : Option HostFilter :=
  Choice.read? HostFilter.readBody? data

def InstanceFilter.read? (data : ν) : Option InstanceFilter := do
  let entries ← record? ["vpcs", "tags"] data
  let networks ← optional [] (list? text?) entries "vpcs"
  let tags ← Field.readOptional? entries "tags"
  return ⟨networks, tags⟩

def Configuration.readBody? (tag : String) (body : Option ν) : Option Configuration := do
  match ← Place.ofName? tag with
  | .inline =>
      let entries ← body >>= body? ["content"]
      .inline <$> required Field.read? entries "content"
  | .files =>
      let entries ← body >>= body? ["files"]
      .files <$> required (list? text?) entries "files"

def Configuration.read? (data : ν) : Option Configuration := do
  let entries ← record? ["store"] data
  required (Choice.read? Configuration.readBody?) entries "store"

def TemplateRef.read? (data : ν) : Option TemplateRef := do
  let entries ← record? ["templateRef", "versionLabel"] data
  let template ← required text? entries "templateRef"
  let version ← optional "" text? entries "versionLabel"
  return ⟨template, version⟩

def Variable.read? (data : ν) : Option Variable := do
  let entries ← record? ["name", "value"] data
  let name ← required text? entries "name"
  let value ← Field.readOptional? entries "value"
  return ⟨name, value⟩

def Kind.read? (data : ν) : Option Kind :=
  constant? data >>= Kind.ofTag?

def Target.ofEntries? (kind : Kind) (entries : List (String × ν)) : Option Target :=
  match kind with
  | .kubernetesDirect => some .kubernetesDirect
  | .kubernetesGcp => some .kubernetesGcp
  | .kubernetesAzure =>
      .kubernetesAzure <$> Field.readOptional? entries Slot.useClusterAdminCredentials.name
  | .kubernetesAws => some .kubernetesAws
  | .kubernetesRancher => some .kubernetesRancher
  | .serverlessAwsLambda => some .serverlessAwsLambda
  | .pdc => do
      let hosts ← Field.readOptional? entries Slot.hosts.name
      let filter ← optional none (option? HostFilter.read?) entries Slot.hostFilter.name
      let attributes ← Field.readOptional? entries Slot.hostAttributes.name
      return .pdc hosts filter attributes
  | .sshWinRmAws =>
      .sshWinRmAws <$>
        optional none (option? InstanceFilter.read?) entries Slot.awsInstanceFilter.name
  | .sshWinRmAzure => .sshWinRmAzure <$> Field.readOptional? entries Slot.hostTags.name
  | .azureWebApp => some .azureWebApp
  | .ecs => some .ecs
  | .googleCloudFunctions => some .googleCloudFunctions
  | .elastigroup =>
      .elastigroup <$>
        optional none (option? Configuration.read?) entries Slot.configuration.name
  | .asg => some .asg
  | .customDeployment => do
      let template ←
        optional none (option? TemplateRef.read?) entries Slot.customDeploymentRef.name
      let settings ← optional [] (list? Variable.read?) entries Slot.settings.name
      return .customDeployment template settings
  | .tas => some .tas
  | .awsSam => some .awsSam
  | .awsLambda => some .awsLambda

/-- Reads the text attributes of a kind; all others are absent. -/
def Definition.readTexts? (kind : Kind) (entries : List (String × ν)) :
    Option (Attribute → Option (Field String)) := do
  let fields ← kind.attributes.mapM fun name => do
    let field ← Field.readOptional? entries name.name
    return (name, field)
  return fun name => (fields.lookup name).join

/-- Reads the body of a definition.  A field that both the kind and the details know
belongs to the kind. -/
def Definition.readBody? (tag : String) (body : Option ν) : Option Definition := do
  let kind ← Kind.ofTag? tag
  let entries ← body >>= open?
  let names := kind.slots.map Slot.name
  let own ← single? (entries.filter fun entry => entry.1 ∈ names)
  let others ← (entries.filter fun entry => entry.1 ∉ names).mapM fun entry => do
    let value ← held? entry.2
    return (entry.1, value)
  let details ← Details.ofEntries? others
  let text ← readTexts? kind own
  let target ← Target.ofEntries? kind own
  return ⟨details, text, target⟩

end Parts

/-- The definition that a value of a document describes.  The kind is looked at
first, so that an unknown one is reported as such. -/
def Definition.ofValue (value : Yaml.Value) : Except Error Definition :=
  match value.get? Choice.tagName >>= Yaml.Value.text? with
  | none => .error (.parse .missingKind)
  | some tag =>
      match Kind.ofTag? tag with
      | none => .error (.unknownKind tag)
      | some kind =>
          match Choice.read? Definition.readBody? value with
          | some definition => .ok definition
          | none => .error (.parse (.badBody kind))

end DeployTarget
