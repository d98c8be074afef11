import DeployTarget.Json.Basic

/-!
# The surroundings of a definition

A definition is checked and resolved for an account, an environment and possibly a
service.  All three are given by the caller.
-/

namespace DeployTarget

/-- The account, and the organisation and project in it, that a run belongs to. -/
structure Scope where
  account : String
  organization : Option String
  project : Option String
deriving DecidableEq, Repr, Inhabited

def Scope.unnamed : Scope :=
  ⟨"", none, none⟩

/-- What an environment is for. -/
inductive Environment.Use where
  | preProduction
  | production
deriving DecidableEq, Repr, Inhabited

def Environment.Use.name : Environment.Use → String
  | .preProduction => "PreProduction"
  | .production => "Production"

def Environment.Use.ofName? (name : String) : Option Environment.Use :=
  [.preProduction, .production].find? (·.name == name)

/-- The environment that a target belongs to. -/
structure Environment where
  identifier : String
  name : Option String
  use : Environment.Use
deriving DecidableEq, Repr, Inhabited

/-- The service that is deployed. -/
structure Service where
  identifier : String
  name : Option String
  /-- A release name that the service pins. -/
  releaseName : Option String
deriving DecidableEq, Repr, Inhabited

/-- The release name that a service pins, unless it is empty. -/
def Service.release? (service : Service) : Option String :=
  service.releaseName.filter (· ≠ "")

/-- What a connector is known by. -/
structure Connector where
  identifier : String
  name : Option String
  type : Option String
deriving DecidableEq, Repr, Inhabited

def Connector.label (connector : Connector) : String :=
  connector.name.getD connector.identifier

def Scope.toJson (scope : Scope) : Json :=
  .object
    [("accountIdentifier", .string scope.account),
      ("orgIdentifier", .ofText? scope.organization),
      ("projectIdentifier", .ofText? scope.project)]

def Environment.toJson (environment : Environment) : Json :=
  .object
    [("identifier", .string environment.identifier),
      ("name", .ofText? environment.name),
      ("type", .string environment.use.name)]

def Service.toJson (service : Service) : Json :=
  .object
    [("identifier", .string service.identifier),
      ("name", .ofText? service.name),
      ("releaseName", .ofText? service.releaseName)]

def Connector.toJson (connector : Connector) : Json :=
  .object
    [("identifier", .string connector.identifier),
      ("name", .ofText? connector.name),
      ("type", .ofText? connector.type)]

end DeployTarget
