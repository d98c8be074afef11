import DeployTarget.Proofs.Locality
import DeployTarget.Proofs.Texts
import DeployTarget.Request

/-!
# Requests that are checked and resolved

Checking a request and resolving it read the same definition and apply the same checks.  A
request that checking refuses is refused by resolving with the same error, cancelled or not,
and what a request resolves to names the definition that checking accepts.
-/

namespace DeployTarget

/-- An outcome that shows the kind, the identifier and the name of a definition. -/
structure Outcome.Names (outcome : Outcome) (definition : Definition) : Prop where
  kind : outcome.kind = definition.kind
  identifier : outcome.common.entries.lookup "infraIdentifier" =
    some (.string definition.details.identifier)
  infraName : outcome.common.entries.lookup "infraName" =
    some (.string definition.details.name)
  name : outcome.common.entries.lookup "name" = some (.string definition.details.name)

theorem Outcome.Common.lookup_entries (common : Outcome.Common) :
    common.entries.lookup "infraIdentifier" = some (.string common.identifier) ∧
      common.entries.lookup "infraName" = some (.string common.name) ∧
      common.entries.lookup "name" = some (.string common.name) := by
  unfold entries
  cases common.service <;> cases common.showsShortKey <;>
    simp [Outcome.optionalEntry, List.lookup_cons]

namespace Definition

variable {definition : Definition} {surroundings : Surroundings} {world : World}
  {cancelAfter : Option Nat}

/-- A definition whose checks fail is not resolved. -/
theorem result_resolve_of_verdict {error : Error}
    (refused : definition.verdict definition.isDynamic = .error error) :
    ((definition.resolve surroundings).run world cancelAfter).result = .error error := by
  rw [result_resolve, refused]
  rfl

/-- The name of a connector leaves the other names of an outcome as they are. -/
theorem names_withConnector {store : ConnectorRequest → ConnectorAnswer} {scope : Scope}
    {outcome : Outcome} (kind : outcome.kind = definition.kind)
    (identifier : outcome.common.identifier = definition.details.identifier)
    (name : outcome.common.name = definition.details.name) :
    (definition.withConnector store scope outcome).Names definition := by
  have named (common : Outcome.Common)
      (identifier : common.identifier = definition.details.identifier)
      (name : common.name = definition.details.name) :
      ({ outcome with common := common } : Outcome).Names definition := by
    obtain ⟨first, second, third⟩ := common.lookup_entries
    rw [identifier] at first
    rw [name] at second third
    exact ⟨kind, first, second, third⟩
  unfold withConnector
  split
  · exact named outcome.common identifier name
  · exact named _ identifier name

theorem names_of_resolve_eq_ok {outcome : Outcome}
    (resolves : ((definition.resolve surroundings).run world cancelAfter).result =
      .ok outcome) : outcome.Names definition := by
  obtain ⟨texts, extra, -, -, rfl⟩ := exists_of_resolve_eq_ok resolves
  exact names_withConnector rfl rfl rfl

end Definition

namespace Request

/-- What the checks decide about the definition of a request, where there is one. -/
def accepted : Option Definition → Except Error Definition
  | some definition => do
      definition.verdict definition.isDynamic
      return definition
  | none => .error (.invalidRequest .missingDefinition)

theorem result_validate (request : Request) (world : World) :
    (request.validate.run world none).result = request.definition >>= accepted := by
  rw [validate, Program.result_run_bind, Program.run_ofExcept]
  refine bind_congr fun found => ?_
  cases found with
  | none => rfl
  | some definition =>
      rw [Program.result_run_bind, validateOptional,
        (definition.endsAs_validate request.surroundings.environment).result world]
      rfl

theorem result_resolve (request : Request) (world : World) (cancelAfter : Option Nat) :
    (request.resolve.run world cancelAfter).result =
      request.definition >>= fun found =>
        match found with
        | some definition =>
            ((definition.resolve request.surroundings).run world cancelAfter).result
        | none => .error (.invalidRequest .missingDefinition) := by
  rw [resolve, Program.run, (Program.isLocal_ofExcept _).result_bind _ world,
    Program.run_ofExcept]
  refine bind_congr fun found => ?_
  cases found <;> rfl

/-- A request that is refused when it is checked is refused in the same way when it is
resolved, cancelled or not.  What it resolves to has the kind, the identifier and the name
of the definition that checking accepts. -/
theorem result_resolve_agrees (request : Request) (cancelAfter : Option Nat) :
    (∀ error, (request.validate.run request.world none).result = .error error →
      (request.resolve.run request.world cancelAfter).result = .error error) ∧
    ∀ outcome, (request.resolve.run request.world cancelAfter).result = .ok outcome →
      ∃ definition, (request.validate.run request.world none).result = .ok definition ∧
        outcome.Names definition := by
  rw [result_validate, result_resolve]
  cases request.definition with
  | error unread => exact ⟨by rintro _ ⟨⟩; rfl, by rintro _ ⟨⟩⟩
  | ok found =>
      cases found with
      | none => exact ⟨by rintro _ ⟨⟩; rfl, by rintro _ ⟨⟩⟩
      | some definition =>
          simp only [bind, Except.bind, accepted]
          cases verdict : definition.verdict definition.isDynamic with
          | error refused =>
              constructor
              · rintro _ ⟨⟩
                exact Definition.result_resolve_of_verdict verdict
              · intro outcome resolves
                rw [Definition.result_resolve_of_verdict verdict] at resolves
                cases resolves
          | ok passed =>
              constructor
              · rintro _ ⟨⟩
              · intro outcome resolves
                exact ⟨definition, rfl, Definition.names_of_resolve_eq_ok resolves⟩

/-- A request for a function in the cloud, with the region that is given. -/
def sampleRequest (region : Yaml.Value) : Request where
  surroundings := ⟨.unnamed, ⟨"environment", none, .production⟩, none, .empty⟩
  outputs := ⟨.null⟩
  connectors := []
  infrastructure := some <| .mapping
    [(.text "type", .text "AwsLambda"),
      (.text "spec", .mapping [(.text "infraName", .text "Function"), (.text "region", region)])]

/-- Without a region the request is refused, also if it is cancelled; with one it resolves to
a function of the given name. -/
theorem result_resolve_agrees_sampleRequest :
    (((sampleRequest .null).resolve.run (sampleRequest .null).world (some 0)).result =
      .error (.violation (.empty "region"))) ∧
    ∃ outcome definition,
      ((sampleRequest (.text "north")).resolve.run (sampleRequest (.text "north")).world
        none).result = .ok outcome ∧
      ((sampleRequest (.text "north")).validate.run (sampleRequest (.text "north")).world
        none).result = .ok definition ∧
      definition.details.name = "Function" ∧ outcome.Names definition := by
  constructor
  · exact (result_resolve_agrees (sampleRequest .null) (some 0)).1 _ rfl
  · obtain ⟨definition, accepted, names⟩ :=
      (result_resolve_agrees (sampleRequest (.text "north")) none).2 _ rfl
    exact ⟨_, definition, rfl, accepted, by cases accepted; rfl, names⟩

end Request

end DeployTarget
