import DeployTarget.Proofs.KeySegments
import DeployTarget.Proofs.Parsing
import DeployTarget.Proofs.Presence
import DeployTarget.Proofs.StaticResolution

/-!
# Pools whose hosts are written

A pool that is not provisioned is checked for hosts or a connector.  An expression passes
for hosts, but only a value has hosts, so a pool whose hosts are an expression is left with
its connector, if there is one.
-/

namespace DeployTarget

/-- Whether the outcome of a pool has hosts or a connector. -/
def Outcome.HasTarget (outcome : Outcome) : Prop :=
  (∃ host others selection, outcome.extra = .pool (host :: others) selection) ∨
    ∃ reference, outcome.reported? (.text .connectorRef) = some reference

namespace Validation

/-- A field that passes for one with a value or an expression has one of them. -/
theorem exists_of_hasValueOrExpression {α : Type} [FieldValue α] {field : Option (Field α)}
    (present : hasValueOrExpression field = true) :
    (∃ text, field = some (.expression text)) ∨
      ∃ value, field.bind Field.value? = some value ∧ FieldValue.isBlank value = false := by
  rcases hasValueOrExpression_iff.mp present with ⟨value, valued, -, filled⟩ | ⟨text, written, -⟩
  · exact .inr ⟨value, valued, filled⟩
  · exact .inl ⟨text, written⟩

end Validation

namespace Definition

open Validation

variable {definition : Definition} {surroundings : Surroundings} {world : World}
  {hosts : Option (Field HostList)} {filter : Option HostFilter}
  {attributes : Option (Field Tags)}

/-- Hosts or a connector must be there if the hosts are not provisioned. -/
theorem Passes.hostsOrConnector (passes : definition.Passes false)
    (pool : definition.target = .pdc hosts filter attributes) :
    hasValueOrExpression hosts = true ∨
      hasValueOrExpression (definition.text .connectorRef) = true := by
  have rules : definition.checkHosts false hosts attributes = .ok () := by
    simpa only [checkTarget, pool] using passes.target
  rwa [checkHosts_static_eq_ok_iff, require_valueOrExpression_eq_ok,
    require_valueOrExpression_eq_ok] at rules

/-- The hosts of an outcome are those that are written with a value, and its connector is
the one that is written, unless that is empty. -/
theorem exists_of_resolve_pool {cancelAfter : Option Nat} {outcome : Outcome}
    (pool : definition.target = .pdc hosts filter attributes)
    (static : definition.isDynamic = false)
    (resolves : ((definition.resolve surroundings).run world cancelAfter).result =
      .ok outcome) :
    definition.Passes false ∧
      outcome.extra = .pool (((hosts.bind Field.value?).map HostList.split).getD [])
        (HostFilter.selection filter) ∧
      outcome.reported? (.text .connectorRef) =
        (definition.writtenText? .connectorRef).filter (· ≠ "") := by
  obtain ⟨passes, base, readFields, rfl⟩ :=
    resolve_eq_ok_iff.mp (Program.result_run_none_of_ok resolves)
  rw [static] at passes readFields
  obtain ⟨texts, read, readBehind⟩ := resolveFields_eq_ok.mp readFields
  have reads : definition.Reads surroundings false world texts := fun reading member =>
    Reading.result_read_of_mem definition.kind.nodup_readings read member
  have isPool : definition.kind = .pdc := by rw [kind, pool]; rfl
  have listed : .connectorRef ∈ definition.reported false := by
    simp only [reported, isPool]
    decide
  have connector (extra : Outcome.Extra) :
      (definition.outcome surroundings false texts extra).reported? (.text .connectorRef) =
        (definition.writtenText? .connectorRef).filter (· ≠ "") :=
    (reported?_outcome listed).trans (lookup_connectorRef isPool reads)
  simp only [readTarget, pool] at readBehind
  cases readBehind
  refine ⟨passes, ?_, ?_⟩
  · rw [extra_withConnector]
    rfl
  · rw [reported?_withConnector, connector]

/-- What passes for a connector is the text that is written, if expressions are not empty. -/
theorem exists_writtenText?_of_present {name : Attribute}
    (holds : ∀ expression, definition.text name = some (.expression expression) →
      expression ≠ "")
    (present : hasValueOrExpression (definition.text name) = true) :
    ∃ reference, definition.writtenText? name = some reference ∧ reference ≠ "" := by
  rcases exists_of_hasValueOrExpression present with ⟨text, written⟩ | ⟨value, valued, filled⟩
  · exact ⟨text, by rw [writtenText?, written]; rfl, holds text written⟩
  · obtain ⟨field, written, valued⟩ := Option.bind_eq_some_iff.mp valued
    refine ⟨value, ?_, by simpa [FieldValue.isBlank] using filled⟩
    rw [writtenText?, written, Option.bind_some]
    cases field <;> cases valued <;> rfl

/-- The outcome of a pool that was read from a document and is not provisioned has hosts or
a connector if and only if the hosts are no expression without a value or there is a
connector with a name. -/
theorem hasTarget_iff (value : Yaml.Value) (definition : Definition)
    (hosts : Option (Field HostList)) (filter : Option HostFilter)
    (attributes : Option (Field Tags)) (surroundings : Surroundings) (world : World)
    (cancelAfter : Option Nat) (outcome : Outcome) (parsed : ofValue value = .ok definition)
    (pool : definition.target = .pdc hosts filter attributes)
    (static : definition.details.provisioned = false)
    (resolves : ((definition.resolve surroundings).run world cancelAfter).result =
      .ok outcome) :
    outcome.HasTarget ↔
      hosts.bind Field.unresolved? = none ∨
        ∃ reference, definition.writtenText? .connectorRef = some reference ∧ reference ≠ "" := by
  have holds (expression : String)
      (written : definition.text .connectorRef = some (.expression expression)) :
      expression ≠ "" := by
    obtain ⟨raw, read⟩ := exists_ofJson_of_ofValue parsed written
    exact Field.ne_empty_of_isExpressionText (Field.isExpressionText_of_ofJson read)
  obtain ⟨passes, carried, connector⟩ :=
    exists_of_resolve_pool pool (isDynamic_eq_false (.inl static)) resolves
  have named : (∃ reference, (definition.writtenText? .connectorRef).filter (· ≠ "") =
        some reference) ↔
      ∃ reference, definition.writtenText? .connectorRef = some reference ∧ reference ≠ "" := by
    simp [Option.filter_eq_some_iff]
  rw [Outcome.HasTarget, carried, connector, named]
  constructor
  · rintro (⟨host, others, selection, same⟩ | known)
    · -- An expression has no hosts.
      rcases hosts with - | (list | - | text | ⟨text, list⟩)
      · exact .inl rfl
      · exact .inl rfl
      · exact .inl rfl
      · cases same
      · exact .inl rfl
    · exact .inr known
  · rintro (resolved | known)
    · rcases passes.hostsOrConnector pool with present | present
      · rcases exists_of_hasValueOrExpression present with ⟨text, rfl⟩ | ⟨list, valued, filled⟩
        · cases resolved
        · have some_host : list.split ≠ [] := by simpa [FieldValue.isBlank] using filled
          obtain ⟨host, others, split⟩ := List.exists_cons_of_ne_nil some_host
          refine .inl ⟨host, others, HostFilter.selection filter, ?_⟩
          rw [valued, Option.map_some, Option.getD_some, split]
      · exact .inr (exists_writtenText?_of_present holds present)
    · exact .inr known

/-- A document of a pool without a connector. -/
def poolDocument (hosts : String) : Yaml.Value :=
  .mapping
    [(.text "type", .text "Pdc"),
      (.text "spec", .mapping
        [(.text "credentialsRef", .text "credentials"), (.text "hosts", .text hosts)])]

/-- A pool with a host in its list has it in its outcome. -/
theorem hasTarget_iff_poolDocument :
    let surroundings : Surroundings :=
      ⟨.unnamed, ⟨"environment", none, .production⟩, none, .empty⟩
    let world : World := ⟨fun _ => .ok none, fun _ => .ok none⟩
    ∃ definition outcome, ofValue (poolDocument " , host") = .ok definition ∧
      definition.details.provisioned = false ∧
      ((definition.resolve surroundings).run world none).result = .ok outcome ∧
      outcome.HasTarget := by
  intro surroundings world
  refine ⟨_, _, rfl, rfl, rfl, ?_⟩
  exact (hasTarget_iff (poolDocument " , host") _ _ _ _ surroundings world none _ rfl rfl rfl
    rfl).mpr (.inl rfl)

/-- A pool whose hosts are an expression is resolved without hosts and without a connector. -/
theorem lacks_target_poolDocument :
    let surroundings : Surroundings :=
      ⟨.unnamed, ⟨"environment", none, .production⟩, none, .empty⟩
    let world : World := ⟨fun _ => .ok none, fun _ => .ok none⟩
    ∃ definition outcome, ofValue (poolDocument "<+pipeline.hosts>") = .ok definition ∧
      definition.kind = .pdc ∧ definition.details.provisioned = false ∧
      ((definition.resolve surroundings).run world none).result = .ok outcome ∧
      outcome.extra = .pool [] (HostFilter.selection none) ∧
      outcome.reported? (.text .connectorRef) = none :=
  ⟨_, _, rfl, rfl, rfl, rfl, rfl, rfl⟩

end Definition

end DeployTarget
