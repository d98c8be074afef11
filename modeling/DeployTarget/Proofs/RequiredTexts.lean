import DeployTarget.Proofs.Origins
import DeployTarget.Proofs.Parsing

/-!
# Texts that must not be empty

A check demands some of the texts of a definition, and refuses an empty one.  It looks at
the definition alone, before an evaluator is consulted.  So a demanded text is reported in
every outcome, and for a definition that was read from a document it is empty exactly where
the evaluator answers with the empty text.
-/

namespace DeployTarget

namespace Kind

/-- Every text that a kind demands is read, and kept even if it is empty. -/
theorem reading_of_requirement (kind : Kind) : ∀ requirement ∈ kind.requirements,
    (∃ reading ∈ kind.readings,
        reading.name = requirement.name ∧ reading.manner ≠ .plainOrBlank) ∨
      requirement.name = .hostConnectionType ∧ kind = .sshWinRmAws := by
  cases kind <;> decide

/-- A provisioned pool demands nothing but its credentials. -/
theorem credentialsRef_of_requirement (kind : Kind) :
    ∀ requirement ∈ kind.requirements, kind = .pdc → requirement.name = .credentialsRef := by
  cases kind <;> decide

end Kind

theorem Manner.view_some {manner : Manner} (kept : manner ≠ .plainOrBlank) (text : String) :
    manner.view (some text) = some text := by
  cases manner with
  | plainOrBlank => exact absurd rfl kept
  | plain | plainOrAbsent | provisioned | release => rfl

theorem Service.ne_empty_of_release? {service : Service} {release : String}
    (pinned : service.release? = some release) : release ≠ "" :=
  of_decide_eq_true (Option.filter_eq_some_iff.mp pinned).2

namespace Field

/-- A text that is demanded is empty where it is read only if it was supplied so. -/
theorem shown_of_demanded {dynamic : Bool} {field : Option (Field String)} {label : String}
    {presence : Presence}
    (present : Validation.violation? dynamic field label presence = none)
    (holds : ∀ expression, field = some (.expression expression) → expression ≠ "")
    (lookup : String → Except Error (Option Json)) (consulted : Bool) :
    ∃ text, (shown lookup consulted field).bind valueOrExpression? = some text ∧
      (text = "" ↔ consulted = true ∧ ∃ expression,
        field = some (.expression expression) ∧
          supplied? String lookup expression = some "") := by
  have filled {value : String} {field : Field String} (valued : field.value? = some value)
      (present : Validation.violation? dynamic (some field) label presence = none) :
      value ≠ "" := by
    rintro rfl
    have unmarked : FieldValue.isInputMarker "" = false := by decide
    simp [Validation.violation?, valued, unmarked, FieldValue.isBlank] at present
  rcases field with - | (value | - | expression | ⟨written, value⟩)
  · simp [Validation.violation?] at present
  · have nonempty := filled rfl present
    exact ⟨value, by rw [shown_eq_self rfl]; rfl, by simp [nonempty]⟩
  · exact absurd rfl (Validation.ne_pending_of_violation?_eq_none present)
  · have nonempty := holds expression rfl
    cases consulted with
    | false => exact ⟨expression, rfl, by simp [nonempty]⟩
    | true =>
        -- What is not supplied is shown as the expression, which is not empty either.
        cases answered : supplied? String lookup expression with
        | none =>
            exact ⟨expression, by rw [shown_of_not_supplied answered]; rfl,
              by simp [nonempty, answered]⟩
        | some value =>
            exact ⟨value, by rw [shown_of_supplied answered]; rfl, by simp [answered]⟩
  · have nonempty := filled rfl present
    exact ⟨value, by rw [shown_eq_self rfl]; rfl, by simp [nonempty]⟩

end Field

namespace Definition

/-- Whether an evaluator supplies the empty text for an attribute that it is consulted
for. -/
def SuppliesBlank (definition : Definition) (service : Option Service)
    (lookup : String → Except Error (Option Json)) (name : Attribute) : Prop :=
  definition.consults service name = true ∧ ∃ expression,
    definition.text name = some (.expression expression) ∧
      Field.supplied? String lookup expression = some ""

variable {definition : Definition} {surroundings : Surroundings} {world : World}
  {texts : Texts}

private theorem mem_reported_of_requirement {requirement : Requirement}
    (demanded : requirement ∈ definition.kind.requirements) (dynamic : Bool) :
    requirement.name ∈ definition.reported dynamic := by
  unfold reported
  split
  next pool =>
      exact List.mem_singleton.mpr
        (definition.kind.credentialsRef_of_requirement _ demanded pool.1)
  next => exact definition.kind.mem_attributes_of_requirement _ demanded

/-- A release name that the service pins is read as it is pinned, and it is not empty. -/
private theorem lookup_of_pinned
    (read : definition.Reads surroundings definition.isDynamic world texts) {reading : Reading}
    (listed : reading ∈ definition.kind.readings) (manner : reading.manner = .release)
    {release : String} (pinned : surroundings.service.bind Service.release? = some release) :
    texts.lookup reading.name = some release ∧ release ≠ "" ∧
      definition.consults surroundings.service reading.name = false := by
  have readOne := read reading listed
  have named := ((definition.kind.consulted_of_reading reading listed).2.1 manner).2
  obtain ⟨service, -, proper⟩ := Option.bind_eq_some_iff.mp pinned
  refine ⟨?_, Service.ne_empty_of_release? proper, ?_⟩
  · rw [Reading.read, manner] at readOne
    obtain ⟨text, readText, same⟩ := Program.result_run_bind_eq_ok.mp readOne
    rw [Field.releaseName, pinned] at readText
    cases readText
    exact (Except.ok.inj same).symm
  · simp [consults, consulted, named, pinned]

/-- A demanded text that is read first is empty only if it was supplied so. -/
private theorem lookup_of_requirement (passes : definition.Passes definition.isDynamic)
    (read : definition.Reads surroundings definition.isDynamic world texts)
    (holds : ∀ name expression, definition.text name = some (.expression expression) →
      expression ≠ "")
    {requirement : Requirement} (demanded : requirement ∈ definition.kind.requirements)
    {reading : Reading} (listed : reading ∈ definition.kind.readings)
    (same : reading.name = requirement.name) (kept : reading.manner ≠ .plainOrBlank) :
    ∃ text, texts.lookup requirement.name = some text ∧
      (text = "" ↔
        definition.SuppliesBlank surroundings.service world.lookup requirement.name) := by
  by_cases pinned : reading.manner = .release ∧
      (surroundings.service.bind Service.release?).isSome
  · obtain ⟨manner, pinned⟩ := pinned
    obtain ⟨release, pinned⟩ := Option.isSome_iff_exists.mp pinned
    obtain ⟨found, nonempty, unasked⟩ := lookup_of_pinned read listed manner pinned
    rw [same] at found unasked
    exact ⟨release, found, by simp [SuppliesBlank, nonempty, unasked]⟩
  · have unpinned (manner : reading.manner = .release) :
        surroundings.service.bind Service.release? = none :=
      Option.not_isSome_iff_eq_none.mp fun there => pinned ⟨manner, there⟩
    obtain ⟨-, view⟩ := read.lookup_eq listed unpinned
    obtain ⟨text, shownAs, blank⟩ := Field.shown_of_demanded
      (passes.requirements _ demanded) (holds _) world.lookup
      (definition.consults surroundings.service requirement.name)
    refine ⟨text, ?_, blank⟩
    rw [same] at view
    rw [view, Definition.shown, shownAs, Manner.view_some kept]

/-- The way to reach the instances of a cloud account is reported as it is written. -/
private theorem reported?_hostConnectionType (cloud : definition.kind = .sshWinRmAws)
    {dynamic : Bool} {base : Outcome}
    (read : ((definition.resolveFields surroundings dynamic).run world none).result = .ok base) :
    base.reported? (.text .hostConnectionType) =
      definition.writtenText? .hostConnectionType := by
  have listed : .hostConnectionType ∈ definition.reported dynamic := by
    rw [reported, if_neg (by simp [cloud]), cloud]
    decide
  obtain ⟨texts, readTexts, readBehind⟩ := resolveFields_eq_ok.mp read
  have absent : texts.lookup .hostConnectionType = none := by
    refine Reading.lookup_eq_none_of_not_mem readTexts fun member => ?_
    obtain ⟨reading, there, named⟩ := List.mem_map.mp member
    exact definition.kind.name_ne_hostConnectionType reading there named
  cases target : definition.target <;> simp only [kind, target, Target.kind] at cloud <;>
    try cases cloud
  simp only [readTarget, target] at readBehind
  obtain ⟨tags, -, readBehind⟩ := Program.result_run_bind_eq_ok.mp readBehind
  obtain ⟨connection, readConnection, same⟩ := Program.result_run_bind_eq_ok.mp readBehind
  have readOne := Reading.result_read_of_mem (by simp) readConnection List.mem_cons_self
  rw [show Reading.read ⟨.hostConnectionType, .plainOrAbsent⟩ surroundings definition dynamic =
      Field.plain (definition.text .hostConnectionType) Attribute.hostConnectionType.name
    from rfl, (Field.endsAs_plain _ _).result world, Field.written_eq_ok_iff] at readOne
  cases same
  rw [reported?_outcome listed, List.lookup_append, absent, Option.none_or, writtenText?,
    readOne.2]

/-- Every text that the kind of a definition demands is reported.  If the definition was
read from a document, the text is empty if and only if the evaluator was consulted for it
and answered with the empty text. -/
theorem reported_of_required (value : Yaml.Value) (definition : Definition)
    (surroundings : Surroundings) (world : World) (cancelAfter : Option Nat)
    (outcome : Outcome) (parsed : ofValue value = .ok definition)
    (resolves : ((definition.resolve surroundings).run world cancelAfter).result =
      .ok outcome) :
    ∀ requirement ∈ definition.kind.requirements, ∃ text,
      outcome.reported? (.text requirement.name) = some text ∧
      (text = "" ↔
        definition.SuppliesBlank surroundings.service world.lookup requirement.name) := by
  intro requirement demanded
  have holds (name : Attribute) (expression : String)
      (written : definition.text name = some (.expression expression)) : expression ≠ "" := by
    obtain ⟨raw, read⟩ := exists_ofJson_of_ofValue parsed written
    exact Field.ne_empty_of_isExpressionText (Field.isExpressionText_of_ofJson read)
  obtain ⟨passes, base, readFields, ended⟩ :=
    resolve_eq_ok_iff.mp (Program.result_run_none_of_ok resolves)
  rcases definition.kind.reading_of_requirement _ demanded with
    ⟨reading, listed, same, kept⟩ | ⟨connection, cloud⟩
  · obtain ⟨texts, extra, read, -, rfl⟩ := exists_of_resolve_eq_ok resolves
    rw [reported?_withConnector,
      reported?_outcome (mem_reported_of_requirement demanded definition.isDynamic)]
    exact lookup_of_requirement passes read holds demanded listed same kept
  · obtain ⟨text, shownAs, blank⟩ := Field.shown_of_demanded
      (passes.requirements _ demanded) (holds _) world.lookup false
    have unasked : definition.consults surroundings.service requirement.name = false := by
      rw [connection]
      exact consults_eq_false definition.kind.hostConnectionType_not_mem_consulted
    refine ⟨text, ?_, by rw [SuppliesBlank, unasked]; exact blank⟩
    rw [← ended, reported?_withConnector, connection, reported?_hostConnectionType cloud readFields]
    rw [connection] at shownAs
    exact shownAs

/-- A document of a cluster whose namespace comes from a provisioner. -/
def clusterDocument : Yaml.Value :=
  .mapping
    [(.text "type", .text "KubernetesDirect"),
      (.text "spec", .mapping
        [(.text "dynamicallyProvisioned", .scalar (.bool true)),
          (.text "connectorRef", .text "connector"),
          (.text "namespace", .text "<+provisioner.namespace>"),
          (.text "releaseName", .text "release")])]

/-- With a namespace in the output of the provisioner, no demanded text is empty. -/
theorem reported_of_required_clusterDocument :
    let surroundings : Surroundings :=
      ⟨.unnamed, ⟨"environment", none, .production⟩, none, .empty⟩
    let outputs : Outputs := ⟨.object [("namespace", .string "web")]⟩
    ∃ definition outcome, ofValue clusterDocument = .ok definition ∧
      ((definition.resolve surroundings).run ⟨outputs.lookup, fun _ => .ok none⟩ none).result =
        .ok outcome ∧
      ∃ text, outcome.reported? (.text .kubeNamespace) = some text ∧ text ≠ "" := by
  intro surroundings outputs
  refine ⟨_, _, rfl, rfl, ?_⟩
  obtain ⟨text, reported, blank⟩ := reported_of_required clusterDocument _ surroundings
    ⟨outputs.lookup, fun _ => .ok none⟩ none _ rfl rfl (Kind.demand .kubeNamespace)
    List.mem_cons_self
  refine ⟨text, reported, fun empty => ?_⟩
  obtain ⟨-, expression, written, supplied⟩ := blank.mp empty
  cases written
  exact absurd supplied (by decide)

/-- An empty namespace in the output of the provisioner is reported, and it is part of the
key. -/
theorem reported_empty_clusterDocument :
    let surroundings : Surroundings :=
      ⟨.unnamed, ⟨"environment", none, .production⟩, none, .empty⟩
    let outputs : Outputs := ⟨.object [("namespace", .string "")]⟩
    ∃ definition outcome, ofValue clusterDocument = .ok definition ∧
      ((definition.resolve surroundings).run ⟨outputs.lookup, fun _ => .ok none⟩ none).result =
        .ok outcome ∧
      Kind.demand .kubeNamespace ∈ definition.kind.requirements ∧
      outcome.reported? (.text .kubeNamespace) = some "" ∧
      outcome.common.key = Key.generate none "environment" ["connector", ""] := by
  intro surroundings outputs
  refine ⟨_, _, rfl, rfl, ?_, rfl, rfl⟩
  exact List.mem_cons_self

end Definition

end DeployTarget
