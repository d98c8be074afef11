import DeployTarget.Ambient
import DeployTarget.Source

/-!
# Reading the surroundings of a definition

Scopes, environments, services and connectors are records of texts.  A record or a
text of the wrong form makes the whole unreadable.
-/

namespace DeployTarget

open Source

variable {ν : Type} [Source ν]

def Scope.read? (data : ν) : Option Scope := do
  let entries ← record? ["accountIdentifier", "orgIdentifier", "projectIdentifier"] data
  let account ← required text? entries "accountIdentifier"
  let organization ← optional none (option? text?) entries "orgIdentifier"
  let project ← optional none (option? text?) entries "projectIdentifier"
  return ⟨account, organization, project⟩

def Environment.Use.read? (data : ν) : Option Environment.Use :=
  constant? data >>= ofName?

def Environment.read? (data : ν) : Option Environment := do
  let entries ← record? ["identifier", "name", "type"] data
  let identifier ← required text? entries "identifier"
  let name ← optional none (option? text?) entries "name"
  let use ← optional .preProduction Use.read? entries "type"
  return ⟨identifier, name, use⟩

def Service.read? (data : ν) : Option Service := do
  let entries ← record? ["identifier", "name", "releaseName"] data
  let identifier ← required text? entries "identifier"
  let name ← optional none (option? text?) entries "name"
  let releaseName ← optional none (option? text?) entries "releaseName"
  return ⟨identifier, name, releaseName⟩

def Connector.read? (data : ν) : Option Connector := do
  let entries ← record? ["identifier", "name", "type"] data
  let identifier ← required text? entries "identifier"
  let name ← optional none (option? text?) entries "name"
  let type ← optional none (option? text?) entries "type"
  return ⟨identifier, name, type⟩

end DeployTarget
