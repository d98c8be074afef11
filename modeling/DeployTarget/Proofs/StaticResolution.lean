import DeployTarget.Proofs.Calls
import DeployTarget.Proofs.Locality

/-!
# Resolving without a provisioner

The resolution of a definition that is not dynamic does not depend on the evaluator.  Once
the definition has passed its checks, reading it fails only where a field that no check
demands waits for runtime input.  Behind the reads a run can only be cancelled, and only
if the definition refers to a connector.
-/

namespace DeployTarget

namespace Kind

/-- Apart from the connector, what is read as it is written is demanded. -/
theorem required_of_writtenFirst (kind : Kind) : ∀ name ∈ kind.writtenFirst,
    name = .connectorRef ∨ name ∈ kind.requirements.map (·.name) := by
  cases kind <;> decide

theorem required_of_consulted (kind : Kind) : ∀ name ∈ kind.consulted,
    name ∈ kind.requirements.map (·.name) := by
  cases kind <;> decide

/-- Only custom targets are read without their connector. -/
theorem connectorRef_mem_writtenFirst (kind : Kind) :
    .connectorRef ∈ kind.writtenFirst ↔ kind ≠ .customDeployment := by
  cases kind <;> decide

end Kind

/-- A sequence of inquiries that ask nothing fails where the first field waits. -/
theorem Inquiry.failure?_of_waits {inquiries : List Inquiry} {fields : List (String × Bool)}
    (same : inquiries.map (·.failure) = fields.map fun field =>
      if field.2 then some (.invalidRequest (.runtimeInput field.1)) else none) :
    failure? inquiries =
      (fields.find? (·.2)).map fun field => .invalidRequest (.runtimeInput field.1) := by
  induction fields generalizing inquiries with
  | nil =>
      rw [List.map_nil, List.map_eq_nil_iff] at same
      rw [same]
      rfl
  | cons field rest ih =>
      obtain ⟨inquiry, others, rfl, first, behind⟩ := List.map_eq_cons_iff.mp same
      obtain ⟨name, waiting⟩ := field
      cases waiting with
      | true => simp [failure?, first]
      | false => simpa [failure?, first] using ih behind

namespace Definition

/-! ## Fields that may wait -/

/-- The fields that a definition is read with although no check demands them, in the order
in which they are read: their names, and whether they wait for runtime input. -/
def optionalFields (definition : Definition) : List (String × Bool) :=
  let connectionType := (Attribute.hostConnectionType.name,
    Field.waits (definition.text .hostConnectionType))
  (if definition.kind = .customDeployment then []
    else [(Attribute.connectorRef.name, Field.waits definition.connectorRef)]) ++
  match definition.target with
  | .sshWinRmAws filter =>
      [("awsInstanceFilter.tags", Field.waits (filter.bind (·.tags))), connectionType]
  | .sshWinRmAzure hostTags => [(Slot.hostTags.name, Field.waits hostTags), connectionType]
  | .customDeployment _ settings =>
      settings.map fun entry => (entry.name, Field.waits entry.value)
  | _ => []

/-- The name of the first of these fields that waits. -/
def firstWaiting? (definition : Definition) : Option String :=
  (definition.optionalFields.find? (·.2)).map Prod.fst

variable {definition : Definition} {surroundings : Surroundings} {world : World}

/-- What is demanded does not wait once the checks have passed. -/
theorem Passes.not_waits {dynamic : Bool} (passes : definition.Passes dynamic)
    {name : Attribute} (required : name ∈ definition.kind.requirements.map (·.name)) :
    Field.waits (definition.text name) = false := by
  obtain ⟨requirement, member, rfl⟩ := List.mem_map.mp required
  apply Field.waits_eq_false_iff.mpr
  exact Validation.ne_pending_of_violation?_eq_none (passes.requirements _ member)

/-- Of the fields that are read as they are written, only the connector may wait. -/
theorem failure?_written {dynamic : Bool} (passes : definition.Passes dynamic)
    {names : List Attribute} (demanded : ∀ name ∈ names, name = .connectorRef ∨
      name ∈ definition.kind.requirements.map (·.name)) :
    Inquiry.failure? (names.map fun name =>
        Field.writtenInquiry (definition.text name) name.name) =
      if .connectorRef ∈ names then
        (Field.writtenInquiry definition.connectorRef Attribute.connectorRef.name).failure
      else none := by
  induction names with
  | nil => rfl
  | cons name rest ih =>
      obtain ⟨first, others⟩ := List.forall_mem_cons.mp demanded
      have behind := ih others
      simp only [Inquiry.failure?, List.map_cons, List.findSome?_cons] at behind ⊢
      by_cases connector : name = .connectorRef
      · subst connector
        rw [behind, if_pos List.mem_cons_self, connectorRef]
        split
        next failed => rw [failed]
        next passed => simp [passed]
      · have ready := passes.not_waits (first.resolve_left connector)
        simp [Field.failure_writtenInquiry, ready, behind, Ne.symm connector]

private theorem failure?_textInquiries (passes : definition.Passes false)
    (service : Option Service) (lookup : String → Except Error (Option Json)) :
    Inquiry.failure? (definition.textInquiries service false lookup) =
      if definition.kind = .customDeployment then none
      else
        (Field.writtenInquiry definition.connectorRef Attribute.connectorRef.name).failure := by
  have consulted : Inquiry.failure? ((definition.consulted service).map fun name =>
      Field.inquiry false lookup (.ofAttribute name) (definition.text name) name.name) =
        none := by
    rw [Inquiry.failure?, List.findSome?_eq_none_iff]
    intro inquiry member
    obtain ⟨name, listed, rfl⟩ := List.mem_map.mp member
    have required := definition.kind.required_of_consulted name (List.mem_filter.mp listed).1
    exact (Field.failure_writtenInquiry _ _).trans (by rw [passes.not_waits required]; rfl)
  rw [textInquiries, Inquiry.failure?_append, consulted, Option.or_none,
    failure?_written passes definition.kind.required_of_writtenFirst]
  simp only [Kind.connectorRef_mem_writtenFirst, ne_eq, ite_not]

/-- Reading a definition that has passed its checks fails where the first optional field
waits, and nowhere else. -/
theorem failure?_inquiries (passes : definition.Passes false) (service : Option Service)
    (lookup : String → Except Error (Option Json)) :
    Inquiry.failure? (definition.inquiries service false lookup) =
      definition.firstWaiting?.map fun name => .invalidRequest (.runtimeInput name) := by
  have connector : Inquiry.failure? (definition.textInquiries service false lookup) =
      Inquiry.failure? (if definition.kind = .customDeployment then []
        else [Field.writtenInquiry definition.connectorRef Attribute.connectorRef.name]) := by
    rw [failure?_textInquiries passes]
    split <;> simp [Inquiry.failure?]
  rw [inquiries, Inquiry.failure?_append, connector, ← Inquiry.failure?_append, firstWaiting?,
    Option.map_map]
  apply Inquiry.failure?_of_waits
  unfold optionalFields targetInquiries
  cases target : definition.target <;>
    simp [kind, target, Target.kind, Field.failure_writtenInquiry, Field.inquiry,
      Function.comp_def]

theorem failure_resolveFields (passes : definition.Passes false) (surroundings : Surroundings)
    (world : World) :
    ((definition.resolveFields surroundings false).run world none).failure? =
      definition.firstWaiting?.map fun name => .invalidRequest (.runtimeInput name) :=
  (makes_resolveFields passes surroundings).failure.trans (failure?_inquiries passes _ _)

/-! ## The whole run -/

theorem isDynamic_eq_false (static : definition.details.provisioned = false ∨
    definition.kind ∈ [Kind.elastigroup, .customDeployment]) :
    definition.isDynamic = false := by
  rcases static with unflagged | unsupported
  · rw [isDynamic, unflagged, Bool.and_false]
  · have rigid : definition.kind.supportsProvisioning = false := by
      rcases List.mem_cons.mp unsupported with same | rest
      · rw [same]
        rfl
      · rw [List.mem_singleton.mp rest]
        rfl
    rw [isDynamic, rigid, Bool.false_and]

/-- The checks and the reads are those of any other world; what a run adds is the connector,
before which it may have been cancelled. -/
private theorem result_resolve_eq (static : definition.isDynamic = false)
    (cancelAfter : Option Nat) (other : World) :
    ((definition.resolve surroundings).run world cancelAfter).result = (do
      definition.verdict false
      let base ← ((definition.resolveFields surroundings false).run other none).result
      if definition.refersToConnector && isCancelled cancelAfter 0 then .error .cancelled
      else .ok (definition.withConnector world.connector surroundings.scope base)) := by
  have reads := definition.isLocal_resolveFields surroundings
  rw [result_resolve, static, Program.run, reads.calls_runFrom, reads.runFrom_eq other]
  rfl

/-- If a definition is not dynamic, its resolution yields the same with every evaluator.  It
fails if and only if the checks fail, or else an optional field waits for runtime input, or
else the run has been cancelled before it comes to a connector. -/
theorem result_resolve_static (definition : Definition) (surroundings : Surroundings)
    (world : World) (cancelAfter : Option Nat)
    (static : definition.details.provisioned = false ∨
      definition.kind ∈ [Kind.elastigroup, .customDeployment]) :
    let result (world : World) :=
      ((definition.resolve surroundings).run world cancelAfter).result
    let checked := ((definition.validate surroundings.environment).run world cancelAfter).result
    (∀ evaluator, result ⟨evaluator, world.connector⟩ = result world) ∧
      ∀ error, result world = .error error ↔
        checked = .error error ∨
        checked = .ok () ∧
          ((∃ name, definition.firstWaiting? = some name ∧
              error = .invalidRequest (.runtimeInput name) ∧
              error.message =
                name ++ ": " ++ "set as runtime input but no value was provided") ∨
            definition.firstWaiting? = none ∧ isCancelled cancelAfter 0 = true ∧
              definition.refersToConnector = true ∧ error = .cancelled) := by
  intro result checked
  have static := isDynamic_eq_false static
  constructor
  · intro evaluator
    simp only [result, result_resolve_eq static cancelAfter world]
  · intro error
    have decided : checked = definition.verdict false := by
      rw [← static]
      exact definition.result_validate surroundings.environment world cancelAfter
    simp only [decided, result, result_resolve_eq static cancelAfter world]
    cases verdict : definition.verdict false with
    | error refused => simp [bind, Except.bind]
    | ok passed =>
        have read := failure_resolveFields (verdict_eq_ok_iff.mp verdict) surroundings world
        cases waiting : definition.firstWaiting? with
        | some name =>
            rw [waiting, Option.map_some, Run.failure?_eq_some_iff] at read
            simp only [read, bind, Except.bind]
            constructor
            · rintro ⟨⟩
              exact .inr ⟨trivial, .inl ⟨name, rfl, rfl, rfl⟩⟩
            · rintro (⟨⟨⟩⟩ | ⟨-, ⟨_, ⟨⟩, rfl, -⟩ | ⟨⟨⟩, -⟩⟩)
              rfl
        | none =>
            rw [waiting, Option.map_none, Run.failure?_eq_none_iff] at read
            obtain ⟨base, read⟩ := read
            simp only [read, bind, Except.bind]
            cases definition.refersToConnector <;> cases isCancelled cancelAfter 0 <;>
              simp [eq_comm]

/-- A function in the cloud whose connector waits for runtime input. -/
def sampleFunction : Definition where
  details := ⟨"function", "Function", .empty, false, none⟩
  text
    | .connectorRef => some .pending
    | .region => some (.literal "region")
    | _ => none
  target := .awsLambda

/-- The function passes its checks, and it is the read of its connector that fails. -/
theorem result_resolve_static_sampleFunction :
    let surroundings : Surroundings :=
      ⟨.unnamed, ⟨"environment", none, .production⟩, none, .empty⟩
    let world : World := ⟨fun _ => .ok none, fun _ => .ok none⟩
    ((sampleFunction.validate surroundings.environment).run world (some 0)).result = .ok () ∧
      ((sampleFunction.resolve surroundings).run world (some 0)).result =
        .error (.invalidRequest (.runtimeInput "connectorRef")) := by
  intro surroundings world
  have decided := result_resolve_static sampleFunction surroundings world (some 0) (.inl rfl)
  exact ⟨rfl, (decided.2 _).mpr (.inr ⟨rfl, .inl ⟨"connectorRef", rfl, rfl, rfl⟩⟩)⟩

end Definition

end DeployTarget
