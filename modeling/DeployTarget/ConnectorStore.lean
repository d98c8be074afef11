import DeployTarget.Ambient
import DeployTarget.OrderedMap

/-!
# Connectors and references to them

A connector lives in a scope.  A reference is read from the scope of a run: a plain
one names a connector of that scope, one behind `org.` a connector of its
organisation and one behind `account.` a connector of its account.  The store keeps
the last connector written for each place.
-/

namespace DeployTarget

/-- Why a connector cannot be looked up. -/
inductive ConnectorFault where
  | unavailable (reason : String)
  | invalidReference (reference : String)
deriving DecidableEq, Repr

def ConnectorFault.message : ConnectorFault → String
  | .unavailable reason => "connector service unavailable: " ++ reason
  | .invalidReference reference => "invalid connector reference: " ++ reference

/-- A connector that is asked for from a scope. -/
structure ConnectorRequest where
  scope : Scope
  reference : String
deriving DecidableEq, Repr

/-- Where a connector lives. -/
structure ConnectorPlace where
  scope : Scope
  identifier : String
deriving DecidableEq, Repr

namespace ConnectorRequest

def accountMark : String :=
  "account."

def organizationMark : String :=
  "org."

/-- The scope that a reference is lifted to, and the identifier in it. -/
def lift (request : ConnectorRequest) : Scope × List Char :=
  let scope := request.scope
  let reference := request.reference.toList
  match accountMark.toList.isPrefixOf? reference with
  | some identifier => (⟨scope.account, none, none⟩, identifier)
  | none =>
      match organizationMark.toList.isPrefixOf? reference with
      | some identifier => (⟨scope.account, scope.organization, none⟩, identifier)
      | none => (scope, reference)

/-- The place that is asked for; an identifier is not empty and holds no dot. -/
def place (request : ConnectorRequest) : Except ConnectorFault ConnectorPlace :=
  let (scope, identifier) := request.lift
  if identifier = [] ∨ '.' ∈ identifier then
    .error (.invalidReference request.reference)
  else .ok ⟨scope, String.ofList identifier⟩

end ConnectorRequest

/-- The connectors that are known, by their places. -/
structure ConnectorStore where
  /-- The connectors in the order in which their places were first written. -/
  connectors : OrderedMap ConnectorPlace Connector

namespace ConnectorStore

def empty : ConnectorStore :=
  ⟨.empty⟩

def insert (store : ConnectorStore) (scope : Scope) (connector : Connector) : ConnectorStore :=
  ⟨store.connectors.insert ⟨scope, connector.identifier⟩ connector⟩

def ofList (scope : Scope) (connectors : List Connector) : ConnectorStore :=
  connectors.foldl (insert · scope) empty

def get (store : ConnectorStore) (request : ConnectorRequest) :
    Except ConnectorFault (Option Connector) := do
  let place ← request.place
  return store.connectors.get? place

def size (store : ConnectorStore) : Nat :=
  store.connectors.size

def isEmpty (store : ConnectorStore) : Bool :=
  store.connectors.isEmpty

end ConnectorStore

end DeployTarget
