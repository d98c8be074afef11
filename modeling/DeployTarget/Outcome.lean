import DeployTarget.Ambient
import DeployTarget.Definition.Part
import DeployTarget.Key
import DeployTarget.Kind

/-!
# Outcomes

An outcome is what a definition resolves to: the common block with key and tags, the
texts of the attributes that its kind reports, and what only its kind has.
-/

namespace DeployTarget

/-- What outcomes of all kinds carry. -/
structure Outcome.Common where
  environment : Environment
  service : Option Service
  key : Key
  showsShortKey : Bool
  identifier : String
  name : String
  /-- The tags of the definition, overlaid with those of the caller. -/
  tags : Tags
  connector : Option String
deriving DecidableEq

/-- What only the outcomes of some kinds carry. -/
inductive Outcome.Extra where
  | none
  | clusterAdmin (useClusterAdminCredentials : Bool)
  | pool (hosts : List String) (filter : HostFilter.Selection)
  | provisionedPool (hosts : List String) (attributes : List Tags)
      (filter : HostFilter.Selection)
  | instances (tags : Option Tags)
  | template (reference : TemplateRef) (values : Tags)
deriving DecidableEq

/-- What a definition resolves to. -/
structure Outcome where
  kind : Kind
  common : Outcome.Common
  texts : List (Attribute × String)
  extra : Outcome.Extra
deriving DecidableEq

namespace Outcome

/-- The tag of an outcome: that of its kind, except for a provisioned pool. -/
def tag (outcome : Outcome) : String :=
  match outcome.extra with
  | .provisionedPool _ _ _ => "PdcProvisioned"
  | _ => outcome.kind.tag

/-- The name under which a kind reports an attribute. -/
def label : Kind → Attribute → String
  | .kubernetesAzure, .subscriptionId => "subscription"
  | .azureWebApp, .subscriptionId => "subscription"
  | _, name => name.name

def optionalEntry (name : String) : Option String → List (String × Json)
  | some text => [(name, .string text)]
  | none => []

def Common.entries (common : Common) : List (String × Json) :=
  ("environment", common.environment.toJson) ::
    (common.service.map fun service => ("service", service.toJson)).toList ++
    ("infrastructureKey", .string common.key.text) ::
    optionalEntry "infrastructureKeyShort"
      (if common.showsShortKey then some common.key.short else none) ++
    [("infraIdentifier", .string common.identifier), ("infraName", .string common.name),
      ("name", .string common.name), ("tags", FieldValue.toJson common.tags)] ++
    (common.connector.map fun name =>
      ("connector", Json.object [("name", .string name)])).toList

def Extra.entries : Extra → List (String × Json)
  | .none => []
  | .clusterAdmin flag => [("useClusterAdminCredentials", .bool flag)]
  | .pool hosts filter => [("hosts", .strings hosts), ("hostFilter", filter.toJson)]
  | .provisionedPool hosts attributes filter =>
      [("hosts", .strings hosts),
        ("hostAttributes", .array (attributes.map FieldValue.toJson)),
        ("hostFilter", filter.toJson)]
  | .instances tags => (tags.map fun tags => ("hostTags", FieldValue.toJson tags)).toList
  | .template reference values =>
      [("templateRef", .string reference.template),
        ("versionLabel", .string reference.version),
        ("variables", FieldValue.toJson values)]

def toJson (outcome : Outcome) : Json :=
  .object
    (("kind", .string outcome.tag) :: outcome.common.entries ++
      outcome.texts.map (fun entry => (label outcome.kind entry.1, .string entry.2)) ++
      outcome.extra.entries)

end Outcome

end DeployTarget
