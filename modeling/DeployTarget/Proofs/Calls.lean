import DeployTarget.Proofs.ConnectorName
import DeployTarget.Proofs.Inquiry
import DeployTarget.Proofs.Verdict

/-!
# The calls of a resolution

A definition that does not pass its checks asks nothing.  A definition that passes is
read field by field: a dynamic one asks for every field that comes from a provisioner
and is an expression without a value, in the order of its kind, until a read fails.
The connector is asked for last, once, and only if every read succeeds and the
reference to it has a value.
-/

namespace DeployTarget

namespace Kind

/-- The attributes that a kind reads as they are written, before all others. -/
def writtenFirst : Kind → List Attribute
  | .pdc => [.credentialsRef, .connectorRef]
  | .sshWinRmAws | .sshWinRmAzure => [.connectorRef, .credentialsRef]
  | .customDeployment => []
  | _ => [.connectorRef]

/-- The attributes of a kind that come from a provisioner in a dynamic definition, in the
order in which they are read. -/
def consulted : Kind → List Attribute
  | .kubernetesDirect => [.kubeNamespace, .releaseName]
  | .kubernetesGcp | .kubernetesAws | .kubernetesRancher =>
      [.kubeNamespace, .cluster, .releaseName]
  | .kubernetesAzure =>
      [.kubeNamespace, .cluster, .releaseName, .subscriptionId, .resourceGroup]
  | .serverlessAwsLambda => [.region, .stage]
  | .sshWinRmAws | .asg | .awsSam | .awsLambda => [.region]
  | .sshWinRmAzure | .azureWebApp => [.subscriptionId, .resourceGroup]
  | .ecs => [.region, .cluster]
  | .googleCloudFunctions => [.region, .project]
  | .tas => [.organization, .space]
  | .pdc | .elastigroup | .customDeployment => []

/-- No attribute is consulted twice. -/
theorem nodup_consulted (kind : Kind) : kind.consulted.Nodup := by
  cases kind <;> decide

end Kind

/-- What becomes of an attribute whose expression has no value: the release name keeps its
expression, and every other attribute must have a value. -/
def Mode.ofAttribute : Attribute → Mode
  | .releaseName => .keep
  | _ => .strict

/-- The host objects that an evaluator answers with. -/
def HostPool.objects (expression : String) : Option Json → Except Error (List Json)
  | some (.array objects) => .ok objects
  | some other => .error (.resolution expression (.notHostList (Shape.ofJson other)))
  | none => .error (.resolution expression .noValue)

namespace Definition

/-- The attributes that are consulted, unless the service pins the release name. -/
def consulted (definition : Definition) (service : Option Service) : List Attribute :=
  definition.kind.consulted.filter fun name =>
    name != .releaseName || (service.bind Service.release?).isNone

/-- The expression that stands for the hosts of a provisioned pool. -/
def hostsExpression (definition : Definition) : String :=
  HostPool.arrayExpression
    (((definition.text .hostArrayPath).bind Field.valueOrExpression?).getD "")

/-- The inquiries for the text attributes. -/
def textInquiries (definition : Definition) (service : Option Service) (dynamic : Bool)
    (lookup : String → Except Error (Option Json)) : List Inquiry :=
  (definition.kind.writtenFirst.map fun name =>
      Field.writtenInquiry (definition.text name) name.name) ++
    (definition.consulted service).map fun name =>
      Field.inquiry dynamic lookup (.ofAttribute name) (definition.text name) name.name

/-- The inquiries for what only a kind has.  The attributes of provisioned hosts are
checked to have a value, so that the hosts are all that a pool asks for. -/
def targetInquiries (definition : Definition) (dynamic : Bool)
    (lookup : String → Except Error (Option Json)) : List Inquiry :=
  let connection := Field.writtenInquiry (definition.text .hostConnectionType)
    Attribute.hostConnectionType.name
  match definition.target with
  | .pdc _ _ _ =>
      if dynamic then
        [Field.writtenInquiry (definition.text .hostArrayPath) Attribute.hostArrayPath.name,
          .ask lookup definition.hostsExpression (HostPool.objects definition.hostsExpression)]
      else []
  | .sshWinRmAws filter =>
      [Field.inquiry dynamic lookup .drop (filter.bind (·.tags)) "awsInstanceFilter.tags",
        connection]
  | .sshWinRmAzure hostTags =>
      [Field.inquiry dynamic lookup .drop hostTags Slot.hostTags.name, connection]
  | .customDeployment _ settings =>
      settings.map fun entry => Field.writtenInquiry entry.value entry.name
  | _ => []

/-- The inquiries that reading a definition makes, unless one of them fails. -/
def inquiries (definition : Definition) (service : Option Service) (dynamic : Bool)
    (lookup : String → Except Error (Option Json)) : List Inquiry :=
  definition.textInquiries service dynamic lookup ++ definition.targetInquiries dynamic lookup

/-- The tags by which a definition selects its hosts. -/
def hostTags (definition : Definition) : Option (Field Tags) :=
  match definition.target with
  | .sshWinRmAws filter => filter.bind (·.tags)
  | .sshWinRmAzure hostTags => hostTags
  | _ => none

/-- The expressions that a definition asks for if no read fails: none in a definition
that is not dynamic, the hosts of a provisioned pool, and otherwise every consulted field
that is an expression without a value. -/
def questions (definition : Definition) (service : Option Service) (dynamic : Bool) :
    List String :=
  if dynamic = false then []
  else if definition.kind = .pdc then [definition.hostsExpression]
  else
    (definition.consulted service).filterMap definition.unresolved? ++
      (definition.hostTags.bind Field.unresolved?).toList

/-! ## What the inquiries ask for -/

private theorem questions_textInquiries (definition : Definition) (service : Option Service)
    (dynamic : Bool) (lookup : String → Except Error (Option Json)) :
    (definition.textInquiries service dynamic lookup).filterMap (·.question) =
      if dynamic then (definition.consulted service).filterMap definition.unresolved?
      else [] := by
  have asWritten : definition.kind.writtenFirst.filterMap (fun _ => (none : Option String)) =
      [] := by simp
  simp only [textInquiries, List.filterMap_append, List.filterMap_map, Function.comp_def,
    Field.writtenInquiry, Field.question_inquiry, asWritten, List.nil_append]
  cases dynamic with
  | true => rfl
  | false => simp

private theorem questions_targetInquiries (definition : Definition) (dynamic : Bool)
    (lookup : String → Except Error (Option Json)) :
    (definition.targetInquiries dynamic lookup).filterMap (·.question) =
      if dynamic = false then []
      else if definition.kind = .pdc then [definition.hostsExpression]
      else (definition.hostTags.bind Field.unresolved?).toList := by
  obtain ⟨details, text, target⟩ := definition
  have asked (field : Option (Field Tags)) (name : String) (connection : Inquiry)
      (asWritten : connection.question = none) :
      [Field.inquiry dynamic lookup .drop field name, connection].filterMap (·.question) =
        if dynamic = false then [] else (field.bind Field.unresolved?).toList := by
    simp only [List.filterMap_cons, List.filterMap_nil, Field.question_inquiry, asWritten]
    cases dynamic <;> cases field.bind Field.unresolved? <;> rfl
  cases target with
  | pdc hosts filter attributes => cases dynamic <;> rfl
  | sshWinRmAws filter => exact asked _ _ _ rfl
  | sshWinRmAzure hostTags => exact asked _ _ _ rfl
  | customDeployment template settings =>
      simp [targetInquiries, List.filterMap_map, Field.writtenInquiry, hostTags, kind,
        Target.kind]
  | _ => cases dynamic <;> rfl

/-- The inquiries ask for the unresolved fields, each of them once and in order. -/
theorem questions_inquiries (definition : Definition) (service : Option Service)
    (dynamic : Bool) (lookup : String → Except Error (Option Json)) :
    (definition.inquiries service dynamic lookup).filterMap (·.question) =
      definition.questions service dynamic := by
  rw [inquiries, List.filterMap_append, questions_textInquiries, questions_targetInquiries,
    questions]
  cases dynamic with
  | false => rfl
  | true =>
      by_cases pool : definition.kind = .pdc
      · simp [consulted, pool, Kind.consulted]
      · simp [pool]

/-! ## Reading makes the inquiries -/

variable {world : World}

/-- The readings of a kind are its written attributes and then the consulted ones. -/
theorem flatMap_readings (definition : Definition) (service : Option Service)
    (dynamic : Bool) (lookup : String → Except Error (Option Json)) :
    (definition.kind.readings.flatMap fun reading =>
        reading.inquiries service definition dynamic lookup) =
      definition.textInquiries service dynamic lookup := by
  unfold textInquiries consulted
  cases pinned : service.bind Service.release? <;> cases definition.kind <;>
    simp [Kind.readings, Kind.writtenFirst, Kind.consulted, Reading.inquiries,
      Mode.ofAttribute, pinned]

theorem makes_hostObjects (expression : String) :
    (Program.hostObjects expression).Makes world
      [.ask world.lookup expression (HostPool.objects expression)] := by
  have asked : Program.Makes world _ _ :=
    Program.makes_ask expression (HostPool.objects expression)
  have same : (Program.ask expression >>= fun answer =>
      Program.ofExcept (HostPool.objects expression answer)) =
        Program.hostObjects expression := by
    refine congrArg (Program.lookup expression) (funext fun answer => ?_)
    match answer with
    | none => rfl
    | some (.array objects) => rfl
    | some .null | some (.bool _) | some (.number _) | some (.string _)
    | some (.object _) => rfl
  rwa [same] at asked

theorem makes_keepHosts (mapping : Tags) (index : Nat) (objects : List Json) :
    (keepHosts mapping index objects).Makes world [] := by
  induction objects generalizing index with
  | nil => exact Program.makes_pure []
  | cons object rest ih =>
      unfold keepHosts
      split
      · exact (ih (index + 1)).map _
      · exact (Program.makes_tell _ _ _).bind fun _ _ => ih (index + 1)

theorem makes_readVariables (entries : List Variable) :
    (readVariables entries).Makes world
      (entries.map fun entry => Field.writtenInquiry entry.value entry.name) := by
  induction entries with
  | nil => exact Program.makes_pure []
  | cons entry rest ih =>
      exact (Field.makes_plain entry.value entry.name).bind fun _ _ => ih.map _

/-- Reading provisioned hosts asks for the hosts alone. -/
theorem makes_readHosts (definition : Definition) {attributes : Field Tags} {mapping : Tags}
    (valued : attributes.value? = some mapping) :
    (definition.readHosts (some attributes)).Makes world
      [Field.writtenInquiry (definition.text .hostArrayPath) Attribute.hostArrayPath.name,
        .ask world.lookup definition.hostsExpression
          (HostPool.objects definition.hostsExpression)] := by
  have mapped := Field.endsAs_provisionedValue valued true Slot.hostAttributes.name .strict
  refine (Field.makes_plain _ _).bind fun path read => ?_
  -- The path that was read is the one that the expression is made of.
  rw [(Field.endsAs_plain _ _).result world, Field.written_eq_ok_iff] at read
  refine mapped.makes_nil.bind fun _ _ => Program.makes_stopIfCancelled.bind fun _ _ => ?_
  rw [← read.2]
  refine (makes_hostObjects definition.hostsExpression).bind fun objects _ => ?_
  exact (Program.makes_tell _ _ _).bind fun _ _ => makes_keepHosts _ 0 objects

theorem makes_readConnectionType (surroundings : Surroundings) (definition : Definition)
    (dynamic : Bool) :
    (readConnectionType surroundings definition dynamic).Makes world
      [Field.writtenInquiry (definition.text .hostConnectionType)
        Attribute.hostConnectionType.name] :=
  Reading.makes_readAll surroundings definition dynamic [⟨.hostConnectionType, .plainOrAbsent⟩]

theorem makes_readTarget {definition : Definition} {dynamic : Bool}
    (passes : definition.Passes dynamic) (surroundings : Surroundings) (texts : Texts) :
    (definition.readTarget surroundings dynamic texts).Makes world
      (definition.targetInquiries dynamic world.lookup) := by
  cases target : definition.target
  case pdc hosts filter attributes =>
    simp only [readTarget, targetInquiries, target]
    cases dynamic with
    | false => exact Program.makes_pure _
    | true =>
        obtain ⟨field, mapping, rfl, valued, -⟩ := passes.hostAttributes target
        exact (definition.makes_readHosts valued).map _
  case sshWinRmAws filter =>
    simp only [readTarget, targetInquiries, target]
    exact (Field.makes_provisionedValue dynamic _ _ _).bind fun _ _ =>
      (makes_readConnectionType surroundings definition dynamic).map _
  case sshWinRmAzure hostTags =>
    simp only [readTarget, targetInquiries, target]
    exact (Field.makes_provisionedValue dynamic _ _ _).bind fun _ _ =>
      (makes_readConnectionType surroundings definition dynamic).map _
  case customDeployment template settings =>
    simp only [readTarget, targetInquiries, target]
    exact (makes_readVariables settings).map _
  all_goals
    simp only [readTarget, targetInquiries, target]
    exact Program.makes_pure _

/-- Reading a definition that passes its checks makes the inquiries of its fields. -/
theorem makes_resolveFields {definition : Definition} {dynamic : Bool}
    (passes : definition.Passes dynamic) (surroundings : Surroundings) :
    (definition.resolveFields surroundings dynamic).Makes world
      (definition.inquiries surroundings.service dynamic world.lookup) := by
  refine Program.Makes.bind ?_ fun texts _ => makes_readTarget passes surroundings texts
  rw [← definition.flatMap_readings surroundings.service dynamic world.lookup]
  exact Reading.makes_readAll surroundings definition dynamic definition.kind.readings

/-! ## The whole run -/

/-- What resolving a definition asks, once the definition has passed its checks. -/
def callsOfReading (definition : Definition) (surroundings : Surroundings) (world : World) :
    List Call :=
  let inquiries :=
    definition.inquiries surroundings.service definition.isDynamic world.lookup
  Inquiry.calls inquiries ++
    if (Inquiry.failure? inquiries).isSome then []
    else connectorCalls surroundings.scope definition.connectorRef

theorem calls_resolve_of_passes {definition : Definition}
    (passes : definition.Passes definition.isDynamic) (surroundings : Surroundings)
    (world : World) :
    ((definition.resolve surroundings).run world none).calls =
      definition.callsOfReading surroundings world := by
  have checked := definition.endsAs_validate surroundings.environment
  have made : Program.Makes world _ _ := makes_resolveFields passes surroundings
  rw [verdict_eq_ok_iff.mpr passes] at checked
  rw [callsOfReading, ← made.calls, ← made.failure, resolve_eq, Program.run_bind,
    Run.andThen_of_ok (checked.result world), checked.calls world, Program.run_bind,
    Program.run_tell, Run.andThen_of_ok rfl, Program.run_bind]
  cases read : ((definition.resolveFields surroundings definition.isDynamic).run world
      none).result with
  | error error =>
      rw [Run.andThen_of_error read]
      simp [Run.failure?, Inquiry.attempt, read]
  | ok outcome =>
      have added := result_addConnector world definition surroundings outcome
      rw [Run.andThen_of_ok read, Program.run_bind, Run.andThen_of_ok added]
      simp [Run.failure?, Inquiry.attempt, read, calls_addConnector, Program.run_bind,
        Run.andThen]

/-- A definition that fails its checks asks nothing.  Otherwise its inquiries are asked up
to the first one that fails, and the connector behind them if none does.  The inquiries
ask for the unresolved fields in the order of the kind, and for none of them twice. -/
theorem calls_resolve (definition : Definition) (surroundings : Surroundings)
    (world : World) :
    ((definition.resolve surroundings).run world none).calls =
        (match ((definition.validate surroundings.environment).run world none).result with
        | .error _ => []
        | .ok _ => definition.callsOfReading surroundings world) ∧
      ((definition.inquiries surroundings.service definition.isDynamic
          world.lookup).filterMap (·.question) =
        definition.questions surroundings.service definition.isDynamic) ∧
      (definition.consulted surroundings.service).Nodup := by
  refine ⟨?_, definition.questions_inquiries _ _ _, definition.kind.nodup_consulted.filter _⟩
  have checked := definition.endsAs_validate surroundings.environment
  rw [checked.result world]
  cases verdict : definition.verdict definition.isDynamic with
  | error error =>
      rw [resolve_eq, Program.run_bind,
        Run.andThen_of_error ((checked.result world).trans verdict), checked.calls world]
  | ok passed => exact calls_resolve_of_passes (verdict_eq_ok_iff.mp verdict) surroundings world

end Definition

end DeployTarget
