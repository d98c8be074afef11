import DeployTarget.Ambient.Reader
import DeployTarget.Definition.Reader
import DeployTarget.Expression.Outputs
import DeployTarget.Resolution

/-!
# Requests

A request bundles a definition with everything it is resolved in: the scope, the
environment, the service, the tags of the caller, the output of a provisioner and the
connectors that are known.  The definition itself is read only when it is needed.
-/

namespace DeployTarget

/-- A definition with everything it is resolved in. -/
structure Request where
  surroundings : Surroundings
  outputs : Outputs
  connectors : List Connector
  infrastructure : Option Yaml.Value

namespace Request

open Source

def read? {ν : Type} [Source ν] (data : ν) : Option Request := do
  let entries ← record?
    ["scope", "environment", "service", "tags", "provisioner", "connectors",
      "infrastructure"] data
  let scope ← optional .unnamed Scope.read? entries "scope"
  let environment ← required Environment.read? entries "environment"
  let service ← optional none (option? Service.read?) entries "service"
  let tags ← optional .empty tags? entries "tags"
  let output ← optional .null json? entries "provisioner"
  let connectors ← optional [] (list? Connector.read?) entries "connectors"
  let infrastructure ← optional none (option? value?) entries "infrastructure"
  return ⟨⟨scope, environment, service, tags⟩, ⟨output.canonical⟩, connectors,
    infrastructure⟩

def definition (request : Request) : Except Error (Option Definition) :=
  match request.infrastructure with
  | none => .ok none
  | some (.scalar .null) => .ok none
  | some value => some <$> Definition.ofValue value

/-- The store with the connectors of a request. -/
def store (request : Request) : ConnectorStore :=
  .ofList request.surroundings.scope request.connectors

/-- What a request is resolved against. -/
def world (request : Request) : World where
  lookup := request.outputs.lookup
  connector := request.store.get

def validate (request : Request) : Program Definition := do
  let definition ← Program.ofExcept request.definition
  validateOptional definition request.surroundings.environment
  match definition with
  | some definition => return definition
  | none => .fail (.invalidRequest .missingDefinition)

/-- Resolves the definition of a request. -/
def resolve (request : Request) : Program Outcome := do
  match ← Program.ofExcept request.definition with
  | some definition => definition.resolve request.surroundings
  | none => .fail (.invalidRequest .missingDefinition)

end Request

end DeployTarget
