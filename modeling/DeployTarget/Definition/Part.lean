import DeployTarget.Field.Basic

/-!
# Parts of definitions

The details that all kinds share, and the composite parts that some kinds carry:
host filters, instance filters, configurations, template references and variables.
-/

namespace DeployTarget

/-- What the definitions of all kinds carry. -/
structure Details where
  identifier : String
  name : String
  tags : Tags
  /-- Whether fields come from the output of a provisioner. -/
  provisioned : Bool
  provisionerStep : Option String
deriving DecidableEq

/-- Which hosts of a pool are selected. -/
inductive HostFilter where
  | all
  | names (value : Field (List String))
  | attributes (value : Field Tags)
deriving DecidableEq

namespace HostFilter

/-- The ways to filter hosts. -/
inductive Way where
  | all
  | names
  | attributes
deriving DecidableEq, Repr

def Way.name : Way → String
  | .all => "All"
  | .names => "HostNames"
  | .attributes => "HostAttributes"

def Way.ofName? (name : String) : Option Way :=
  [.all, .names, .attributes].find? (·.name == name)

/-- A filter whose values have been read. -/
structure Selection where
  way : Way
  names : List String
  attributes : Tags
deriving DecidableEq

/-- What a filter selects; a filter without a value selects nothing in its way, and
where there is no filter all hosts are selected. -/
def selection : Option HostFilter → Selection
  | none => ⟨.all, [], .empty⟩
  | some .all => ⟨.all, [], .empty⟩
  | some (.names value) => ⟨.names, value.value?.getD [], .empty⟩
  | some (.attributes value) => ⟨.attributes, [], value.value?.getD .empty⟩

end HostFilter

/-- Which instances of a cloud account are the hosts of a target. -/
structure InstanceFilter where
  networks : List String
  tags : Option (Field Tags)
deriving DecidableEq

/-- Where a configuration is kept. -/
inductive Configuration where
  | inline (content : Field String)
  | files (paths : List String)
deriving DecidableEq

namespace Configuration

/-- The places of configurations. -/
inductive Place where
  | inline
  | files
deriving DecidableEq, Repr

def Place.name : Place → String
  | .inline => "Inline"
  | .files => "Harness"

def Place.ofName? (name : String) : Option Place :=
  [.inline, .files].find? (·.name == name)

end Configuration

/-- The template that a custom target is made from. -/
structure TemplateRef where
  template : String
  version : String
deriving DecidableEq, Repr

/-- A named input of a template. -/
structure Variable where
  name : String
  value : Option (Field String)
deriving DecidableEq

/-! ## Parts as plain data -/

def Details.entries (details : Details) : List (String × Json) :=
  [("infraIdentifier", .string details.identifier),
    ("infraName", .string details.name),
    ("tags", FieldValue.toJson details.tags),
    ("dynamicallyProvisioned", .bool details.provisioned),
    ("provisionerStepIdentifier", .ofText? details.provisionerStep)]

def Details.toJson (details : Details) : Json :=
  .object details.entries

def Json.ofChoice (name : String) (body : List (String × Json)) : Json :=
  .object [("type", .string name), ("spec", .object body)]

def HostFilter.toJson : HostFilter → Json
  | .all => .object [("type", .string Way.all.name)]
  | .names value => .ofChoice Way.names.name [("value", value.toJson)]
  | .attributes value => .ofChoice Way.attributes.name [("value", value.toJson)]

/-- A selection as plain data; what is empty is left out. -/
def HostFilter.Selection.toJson (selection : HostFilter.Selection) : Json :=
  .object
    ([("type", .string selection.way.name)] ++
      (if selection.names = [] then [] else [("hostNames", .strings selection.names)]) ++
      (if selection.attributes.isEmpty then []
        else [("attributes", FieldValue.toJson selection.attributes)]))

def InstanceFilter.toJson (filter : InstanceFilter) : Json :=
  .object [("vpcs", .strings filter.networks), ("tags", Field.optionToJson filter.tags)]

def Configuration.toJson (configuration : Configuration) : Json :=
  let store := match configuration with
    | .inline content => Json.ofChoice Place.inline.name [("content", content.toJson)]
    | .files paths => Json.ofChoice Place.files.name [("files", .strings paths)]
  .object [("store", store)]

def TemplateRef.toJson (reference : TemplateRef) : Json :=
  .object
    [("templateRef", .string reference.template),
      ("versionLabel", .string reference.version)]

def Variable.toJson (entry : Variable) : Json :=
  .object [("name", .string entry.name), ("value", Field.optionToJson entry.value)]

end DeployTarget
