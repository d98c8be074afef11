import DeployTarget.Proofs.Calls
import DeployTarget.Proofs.Cancellation
import DeployTarget.Proofs.Locality
import DeployTarget.Proofs.Texts

/-!
# Connectors do not interfere

A run learns nothing of a world but the answers to the calls that it makes.  Reading a
definition asks the evaluator alone, so that all that a resolution computes, and every failure
of it, is the same with every store of connectors.  Only the name of the connector differs, and
it is there if and only if the store knows the connector that the definition refers to.
-/

namespace DeployTarget

/-- Whether two worlds answer a call alike. -/
def World.AgreesAt (first second : World) : Call → Prop
  | .lookup expression => first.lookup expression = second.lookup expression
  | .connector request => first.connector request = second.connector request

/-- Worlds that answer the calls of a run alike have the same run. -/
theorem Program.runFrom_congr {α : Type} {program : Program α} {first second : World}
    {cancelAfter : Option Nat} {begun : Nat}
    (agree : ∀ call ∈ (program.runFrom first cancelAfter begun).calls,
      first.AgreesAt second call) :
    program.runFrom second cancelAfter begun = program.runFrom first cancelAfter begun := by
  induction program generalizing begun with
  | done value => rfl
  | fail error => rfl
  | log event rest ih => exact congrArg (Run.logged event) (ih agree)
  | checkpoint rest ih =>
      simp only [runFrom] at agree ⊢
      cases cancelled : isCancelled cancelAfter begun with
      | true => rfl
      | false =>
          simp only [cancelled, Bool.false_eq_true, if_false] at agree ⊢
          exact ih agree
  | lookup expression next ih =>
      simp only [runFrom] at agree ⊢
      cases answered : first.lookup expression with
      | error error =>
          simp only [answered] at agree
          have same := agree _ List.mem_cons_self
          rw [World.AgreesAt, answered] at same
          rw [← same]
      | ok value =>
          simp only [answered, Run.called] at agree
          obtain ⟨same, behind⟩ := List.forall_mem_cons.mp agree
          rw [World.AgreesAt, answered] at same
          rw [← same]
          exact congrArg (Run.called _) (ih value behind)
  | connector request next ih =>
      simp only [runFrom, Run.called] at agree ⊢
      obtain ⟨same, behind⟩ := List.forall_mem_cons.mp agree
      rw [World.AgreesAt] at same
      rw [← same, ih _ behind]

/-- Inquiries are for values of expressions. -/
theorem Inquiry.exists_lookup_of_mem_calls {inquiries : List Inquiry} {call : Call}
    (member : call ∈ calls inquiries) : ∃ expression, call = .lookup expression := by
  induction inquiries with
  | nil => cases member
  | cons inquiry rest ih =>
      rw [calls, List.mem_append, Option.mem_toList, Option.map_eq_some_iff] at member
      rcases member with ⟨expression, -, rfl⟩ | later
      · exact ⟨expression, rfl⟩
      · split at later
        · cases later
        · exact ih later

theorem shownConnector_eq_some_iff {store : ConnectorRequest → ConnectorAnswer} {scope : Scope}
    {field : Option (Field String)} {name : String} :
    shownConnector store scope field = some name ↔
      ∃ reference record, field.bind Field.value? = some reference ∧ reference ≠ "" ∧
        store ⟨scope, reference⟩ = .ok (some record) ∧
        name = record.name.getD record.identifier := by
  simp only [shownConnector, reference?, Option.bind_eq_some_iff, Option.filter_eq_some_iff,
    decide_eq_true_eq]
  constructor
  · rintro ⟨reference, ⟨valued, filled⟩, named⟩
    cases answered : store ⟨scope, reference⟩ with
    | error fault =>
        rw [answered] at named
        cases named
    | ok found =>
        rw [answered] at named
        obtain ⟨record, rfl, rfl⟩ := Option.map_eq_some_iff.mp named
        exact ⟨reference, record, valued, filled, answered, rfl⟩
  · rintro ⟨reference, record, valued, filled, answered, rfl⟩
    exact ⟨reference, ⟨valued, filled⟩, by rw [answered]; rfl⟩

/-- Outcomes that are equal in everything but the name of the connector. -/
def Outcome.AgreesButConnector (first second : Outcome) : Prop :=
  { first with common := { first.common with connector := second.common.connector } } = second

namespace Definition

variable {definition : Definition} {surroundings : Surroundings}

/-- The outcome of a definition shows a connector if and only if the definition refers to it
by a name that is not empty and the store answers with a record, and it shows the name of the
record, or else its identifier. -/
def ShowsConnector (definition : Definition) (scope : Scope)
    (store : ConnectorRequest → ConnectorAnswer) (outcome : Outcome) : Prop :=
  ∀ name, outcome.common.connector = some name ↔
    ∃ reference record, definition.connectorRef.bind Field.value? = some reference ∧
      reference ≠ "" ∧ store ⟨scope, reference⟩ = .ok (some record) ∧
      name = record.name.getD record.identifier

/-- Where no connector was named before, the reference alone decides about its name. -/
theorem withConnector_of_unnamed {outcome : Outcome} (unnamed : outcome.common.connector = none)
    (store : ConnectorRequest → ConnectorAnswer) (scope : Scope) :
    definition.withConnector store scope outcome =
      { outcome with
        common := { outcome.common with
          connector := shownConnector store scope definition.connectorRef } } := by
  unfold withConnector
  cases valued : definition.connectorRef.bind Field.value? with
  | some reference => rfl
  | none =>
      have hidden : shownConnector store scope definition.connectorRef = none := by
        rw [shownConnector, reference?, valued]
        rfl
      simp only [hidden, ← unnamed]

/-- Reading a definition names no connector. -/
theorem unnamed_of_resolveFields_eq_ok {world : World} {cancelAfter : Option Nat}
    {dynamic : Bool} {base : Outcome}
    (read : ((definition.resolveFields surroundings dynamic).run world cancelAfter).result =
      .ok base) : base.common.connector = none := by
  obtain ⟨texts, -, behind⟩ := resolveFields_eq_ok.mp (Program.result_run_none_of_ok read)
  obtain ⟨connection, extra, -, -, rfl⟩ := exists_of_readTarget_eq_ok behind
  rfl

/-- Reading a definition that has passed its checks asks the evaluator alone. -/
theorem exists_lookup_of_mem_calls {dynamic : Bool} (passes : definition.Passes dynamic)
    {world : World} {cancelAfter : Option Nat} {call : Call}
    (member : call ∈
      ((definition.resolveFields surroundings dynamic).run world cancelAfter).calls) :
    ∃ expression, call = .lookup expression := by
  have full : call ∈ ((definition.resolveFields surroundings dynamic).run world none).calls := by
    cases cancelAfter with
    | none => exact member
    | some limit =>
        have guarded := definition.guarded_resolveFields surroundings dynamic
        have cut : Run.IsCut limit _ ((definition.resolveFields surroundings dynamic).run world
          none) := guarded.isCut_run limit
        rw [cut.calls] at member
        exact List.mem_of_mem_take member
  rw [(makes_resolveFields passes surroundings).calls] at full
  exact Inquiry.exists_lookup_of_mem_calls full

/-- The store has no part in reading a definition. -/
theorem run_resolveFields_congr {dynamic : Bool} (passes : definition.Passes dynamic)
    (lookup : String → Except Error (Option Json)) (cancelAfter : Option Nat)
    (first second : ConnectorRequest → ConnectorAnswer) :
    (definition.resolveFields surroundings dynamic).run ⟨lookup, second⟩ cancelAfter =
      (definition.resolveFields surroundings dynamic).run ⟨lookup, first⟩ cancelAfter := by
  apply Program.runFrom_congr
  intro call member
  obtain ⟨expression, rfl⟩ := exists_lookup_of_mem_calls passes member
  rfl

/-- With any two stores of connectors, a definition either fails with one and the same error,
or it resolves to outcomes that are equal in everything but the name of the connector, which
is shown if and only if the store answers the reference of the definition with a record. -/
theorem result_resolve_enriched (definition : Definition) (surroundings : Surroundings)
    (lookup : String → Except Error (Option Json)) (cancelAfter : Option Nat)
    (first second : ConnectorRequest → ConnectorAnswer) :
    let result (store : ConnectorRequest → ConnectorAnswer) :=
      ((definition.resolve surroundings).run ⟨lookup, store⟩ cancelAfter).result
    (∃ error, result first = .error error ∧ result second = .error error) ∨
      ∃ outcome other, result first = .ok outcome ∧ result second = .ok other ∧
        outcome.AgreesButConnector other ∧
        definition.ShowsConnector surroundings.scope first outcome ∧
        definition.ShowsConnector surroundings.scope second other := by
  intro result
  simp only [result, result_resolve]
  cases verdict : definition.verdict definition.isDynamic with
  | error refused => exact .inl ⟨refused, rfl, rfl⟩
  | ok passed =>
      rw [run_resolveFields_congr (verdict_eq_ok_iff.mp verdict) lookup cancelAfter first second]
      cases read : ((definition.resolveFields surroundings definition.isDynamic).run
          ⟨lookup, first⟩ cancelAfter).result with
      | error error => exact .inl ⟨error, rfl, rfl⟩
      | ok base =>
          have unnamed := unnamed_of_resolveFields_eq_ok read
          simp only [bind, Except.bind, withConnector_of_unnamed unnamed]
          split
          next => exact .inl ⟨.cancelled, rfl, rfl⟩
          next =>
            refine .inr ⟨_, _, rfl, rfl, rfl, ?_, ?_⟩
            · exact fun name => shownConnector_eq_some_iff
            · exact fun name => shownConnector_eq_some_iff

end Definition

end DeployTarget
