import DeployTarget.Proofs.Run
import DeployTarget.Resolution

/-!
# The name of the connector

The last step of a resolution adds the name of the connector.  It never fails: at most
one connector is asked for, and where none is found the outcome stays without a name.
-/

namespace DeployTarget

/-- The reference under which a connector is asked for: a value that is not empty. -/
def reference? (field : Option (Field String)) : Option String :=
  (field.bind Field.value?).filter (· ≠ "")

/-- The name that is shown for the answer of a store. -/
def ConnectorAnswer.name? : ConnectorAnswer → Option String
  | .ok found => found.map Connector.label
  | .error _ => none

/-- The question for the connector that a field refers to. -/
def connectorCalls (scope : Scope) (field : Option (Field String)) : List Call :=
  ((reference? field).map fun reference => Call.connector ⟨scope, reference⟩).toList

/-- The name of the connector that a field refers to. -/
def shownConnector (store : ConnectorRequest → ConnectorAnswer) (scope : Scope)
    (field : Option (Field String)) : Option String :=
  (reference? field).bind fun reference => (store ⟨scope, reference⟩).name?

/-- Asking for the name of a connector meets no checkpoint. -/
private theorem runFrom_connectorName (world : World) (cancelAfter : Option Nat) (begun : Nat)
    (scope : Scope) (field : Option (Field String)) :
    ∃ events, (connectorName scope field).runFrom world cancelAfter begun =
      ⟨events, connectorCalls scope field,
        .ok (shownConnector world.connector scope field)⟩ := by
  unfold connectorName connectorCalls shownConnector reference?
  cases (field.bind Field.value?).filter (· ≠ "") with
  | none => exact ⟨_, rfl⟩
  | some reference =>
      simp only [Program.runFrom_bind, Program.askConnector, Program.runFrom, Option.bind_some]
      rw [Run.andThen_of_ok rfl]
      cases world.connector ⟨scope, reference⟩ with
      | ok found => cases found <;> exact ⟨_, rfl⟩
      | error fault => exact ⟨_, rfl⟩

namespace Definition

/-- An outcome with the name of the connector, if the definition refers to one. -/
def withConnector (definition : Definition) (store : ConnectorRequest → ConnectorAnswer)
    (scope : Scope) (outcome : Outcome) : Outcome :=
  match definition.connectorRef.bind Field.value? with
  | none => outcome
  | some _ =>
      { outcome with
        common := { outcome.common with
          connector := shownConnector store scope definition.connectorRef } }

/-- The name of the connector changes nothing else in the common block of an outcome. -/
theorem exists_common_withConnector (definition : Definition)
    (store : ConnectorRequest → ConnectorAnswer) (scope : Scope) (outcome : Outcome) :
    ∃ name, (definition.withConnector store scope outcome).common =
      { outcome.common with connector := name } := by
  unfold withConnector
  split
  · exact ⟨outcome.common.connector, rfl⟩
  · exact ⟨_, rfl⟩

theorem extra_withConnector (definition : Definition)
    (store : ConnectorRequest → ConnectorAnswer) (scope : Scope) (outcome : Outcome) :
    (definition.withConnector store scope outcome).extra = outcome.extra := by
  unfold withConnector
  split <;> rfl

private theorem runFrom_addConnector (world : World) (cancelAfter : Option Nat) (begun : Nat)
    (uncancelled : isCancelled cancelAfter begun = false) (definition : Definition)
    (surroundings : Surroundings) (outcome : Outcome) :
    ∃ events, (definition.addConnector surroundings outcome).runFrom world cancelAfter begun =
      ⟨events, connectorCalls surroundings.scope definition.connectorRef,
        .ok (definition.withConnector world.connector surroundings.scope outcome)⟩ := by
  unfold addConnector withConnector
  cases valued : definition.connectorRef.bind Field.value? with
  | none => exact ⟨[], by simp [connectorCalls, reference?, valued, pure, Program.runFrom]⟩
  | some reference =>
      obtain ⟨events, named⟩ := runFrom_connectorName world cancelAfter begun
        surroundings.scope definition.connectorRef
      refine ⟨events, ?_⟩
      simp [Program.runFrom_bind, Program.stopIfCancelled, Program.runFrom, uncancelled, named,
        Run.andThen, pure]

theorem calls_addConnector (world : World) (definition : Definition)
    (surroundings : Surroundings) (outcome : Outcome) :
    ((definition.addConnector surroundings outcome).run world none).calls =
      connectorCalls surroundings.scope definition.connectorRef := by
  obtain ⟨events, added⟩ := runFrom_addConnector world none 0 rfl definition surroundings outcome
  rw [Program.run, added]

/-- Adding the name of the connector does not fail. -/
theorem result_addConnector (world : World) (definition : Definition)
    (surroundings : Surroundings) (outcome : Outcome) :
    ((definition.addConnector surroundings outcome).run world none).result =
      .ok (definition.withConnector world.connector surroundings.scope outcome) := by
  obtain ⟨events, added⟩ := runFrom_addConnector world none 0 rfl definition surroundings outcome
  rw [Program.run, added]

/-- Whether a definition refers to a connector, if only by an empty name. -/
def refersToConnector (definition : Definition) : Bool :=
  (definition.connectorRef.bind Field.value?).isSome

/-- Only a cancelled run that comes to a reference ends without the outcome. -/
theorem result_runFrom_addConnector (world : World) (cancelAfter : Option Nat) (begun : Nat)
    (definition : Definition) (surroundings : Surroundings) (outcome : Outcome) :
    ((definition.addConnector surroundings outcome).runFrom world cancelAfter begun).result =
      if definition.refersToConnector && isCancelled cancelAfter begun then .error .cancelled
      else .ok (definition.withConnector world.connector surroundings.scope outcome) := by
  cases cancelled : isCancelled cancelAfter begun with
  | false =>
      obtain ⟨events, added⟩ := runFrom_addConnector world cancelAfter begun cancelled
        definition surroundings outcome
      rw [added, Bool.and_false]
      rfl
  | true =>
      unfold addConnector withConnector refersToConnector
      cases definition.connectorRef.bind Field.value? with
      | none => rfl
      | some reference =>
          simp [Program.runFrom_bind, Program.stopIfCancelled, Program.runFrom, cancelled,
            Run.andThen]

end Definition

end DeployTarget
