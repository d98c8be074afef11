import DeployTarget.Proofs.Cancellation
import DeployTarget.Proofs.StaticResolution
import Mathlib.Data.List.TakeWhile

/-!
# Runs that are cancelled from the start

A run that has been cancelled before it begins goes on until its first checkpoint.  The reads
of a dynamic definition stop at theirs before they know whether a field has to be asked for,
and the step that names the connector does so before it knows whether the reference is empty.
There alone a run is cancelled although the full run asks nothing; everywhere else it is
cancelled only if the full run asks for something.
-/

namespace DeployTarget

namespace Program

variable {α β : Type} {world : World}

/-! ## Programs that stop -/

/-- A run that has been cancelled stays so, whatever calls were begun before it. -/
theorem runFrom_cancelled (program : Program α) (begun : Nat) :
    program.runFrom world (some 0) begun = program.run world (some 0) := by
  change _ = program.runFrom world (some 0) 0
  induction program generalizing begun with
  | done value => rfl
  | fail error => rfl
  | log event rest ih => exact congrArg (Run.logged event) (ih begun)
  | checkpoint rest ih => simp [runFrom, isCancelled]
  | lookup expression answer ih =>
      simp only [runFrom]
      cases world.lookup expression with
      | error error => rfl
      | ok value => simp only [ih value (begun + 1), ih value (0 + 1)]
  | connector request answer ih =>
      simp only [runFrom]
      rw [ih _ (begun + 1), ih _ (0 + 1)]

/-- A program that ends in the given failure, or in none, if it is cancelled from the start. -/
def Stops (world : World) (program : Program α) (failure : Option Error) : Prop :=
  (program.run world (some 0)).failure? = failure

theorem stops_some_iff {program : Program α} {error : Error} :
    program.Stops world (some error) ↔ (program.run world (some 0)).result = .error error :=
  Run.failure?_eq_some_iff

theorem result_run_cancelled_bind (program : Program α) (next : α → Program β) :
    ((program >>= next).run world (some 0)).result =
      (program.run world (some 0)).result >>= fun value =>
        ((next value).run world (some 0)).result := by
  change ((program >>= next).runFrom world (some 0) 0).result = _
  rw [runFrom_bind, Run.result_andThen]
  simp only [runFrom_cancelled]

theorem Stops.bind {program : Program α} {next : α → Program β} {first second : Option Error}
    (stops : program.Stops world first) (stopsNext : ∀ value, (next value).Stops world second) :
    (program >>= next).Stops world (first.or second) := by
  unfold Stops at stops ⊢
  rw [Run.failure?, result_run_cancelled_bind]
  rw [Run.failure?] at stops
  cases ended : (program.run world (some 0)).result with
  | ok value =>
      rw [ended] at stops
      rw [← stops, ← stopsNext value]
      rfl
  | error error =>
      rw [ended] at stops
      rw [← stops]
      rfl

theorem Stops.map {program : Program α} {failure : Option Error}
    (stops : program.Stops world failure) (change : α → β) :
    (change <$> program).Stops world failure := by
  have mapped : (change <$> program).Stops world (failure.or none) :=
    stops.bind fun value => rfl
  rwa [Option.or_none] at mapped

/-- What follows a failure does not matter. -/
theorem Stops.bind_of_some {program : Program α} {error : Error}
    (stops : program.Stops world (some error)) (next : α → Program β) :
    (program >>= next).Stops world (some error) := by
  rw [stops_some_iff] at stops ⊢
  rw [result_run_cancelled_bind, stops]
  rfl

/-- A program that meets no checkpoint fails where it fails in every run. -/
theorem IsLocal.stops {program : Program α} {inquiries : List Inquiry}
    (isLocal : program.IsLocal) (makes : program.Makes world inquiries) :
    program.Stops world (Inquiry.failure? inquiries) := by
  rw [Stops, run, isLocal.runFrom_eq world]
  exact makes.failure

theorem stops_checkpoint (next : Unit → Program α) :
    (stopIfCancelled >>= next).Stops world (some .cancelled) :=
  rfl

end Program

open Program

variable {world : World}

/-! ## Reads that stop -/

namespace Field

variable {α : Type} [FieldValue α]

theorem rejectPending_of_waits_eq_false {α : Type} {field : Field α}
    (ready : waits (some field) = false) (name : String) : field.rejectPending name = .ok () := by
  cases field with
  | pending => cases ready
  | literal | expression | resolved => rfl

/-- A field that may come from a provisioner stops at its checkpoint, even if it is not one
that has to be asked for. -/
theorem stops_provisioned {field : Field String} (ready : waits (some field) = false)
    (name : String) (mode : Mode) :
    (provisioned true (some field) name mode).Stops world (some .cancelled) := by
  simp only [provisioned, rejectPending_of_waits_eq_false ready, if_true]
  exact stops_checkpoint _

theorem stops_provisionedValue {field : Field α} (ready : waits (some field) = false)
    (name : String) (mode : Mode) :
    (provisionedValue true (some field) name mode).Stops world (some .cancelled) := by
  simp only [provisionedValue, rejectPending_of_waits_eq_false ready, if_true]
  exact stops_checkpoint _

end Field

/-- Whether an attribute is read as it is written in every definition. -/
def Manner.isWritten : Manner → Bool
  | .plain | .plainOrAbsent | .plainOrBlank => true
  | .provisioned | .release => false

namespace Kind

theorem ne_customDeployment_of_supportsProvisioning {kind : Kind}
    (supports : kind.supportsProvisioning = true) : kind ≠ .customDeployment := by
  rintro rfl
  cases supports

/-- What a kind reads as it is written comes before all else. -/
theorem map_name_takeWhile_readings (kind : Kind) :
    (kind.readings.takeWhile (·.manner.isWritten)).map (·.name) = kind.writtenFirst := by
  cases kind <;> rfl

/-- Behind that, every kind that may be dynamic, but for pools, reads from the provisioner, and
first an attribute that it demands. -/
theorem exists_dropWhile_readings (kind : Kind) (supports : kind.supportsProvisioning = true)
    (ordinary : kind ≠ .pdc) :
    ∃ name rest,
      kind.readings.dropWhile (·.manner.isWritten) = ⟨name, .provisioned⟩ :: rest ∧
      name ∈ kind.requirements.map (·.name) := by
  cases kind
  case elastigroup => cases supports
  case customDeployment => cases supports
  case pdc => exact absurd rfl ordinary
  all_goals exact ⟨_, _, rfl, by decide⟩

end Kind

namespace Reading

variable {surroundings : Surroundings} {definition : Definition} {dynamic : Bool}

theorem stops_read_of_isWritten {reading : Reading} (written : reading.manner.isWritten = true) :
    (reading.read surroundings definition dynamic).Stops world
      (Field.writtenInquiry (definition.text reading.name) reading.name.name).failure := by
  rw [← Inquiry.failure?_singleton]
  have stops : Program.Stops world _ _ := (reading.isLocal_read surroundings definition).stops
    (reading.makes_read surroundings definition false)
  obtain ⟨name, manner⟩ := reading
  cases manner with
  | plain | plainOrAbsent | plainOrBlank => exact stops
  | provisioned | release => cases written

/-- Reads of what is written fail where the first field waits, and else as what follows. -/
theorem stops_readAll_append {written rest : List Reading} {failure : Option Error}
    (areWritten : ∀ reading ∈ written, reading.manner.isWritten = true)
    (behind : (readAll surroundings definition dynamic rest).Stops world failure) :
    (readAll surroundings definition dynamic (written ++ rest)).Stops world
      ((Inquiry.failure? (written.map fun reading =>
        Field.writtenInquiry (definition.text reading.name) reading.name.name)).or failure) := by
  induction written with
  | nil => exact behind
  | cons reading others ih =>
      obtain ⟨first, areOthers⟩ := List.forall_mem_cons.mp areWritten
      have read : Program.Stops world (reading.read surroundings definition dynamic) _ :=
        stops_read_of_isWritten first
      have readOthers := ih areOthers
      rw [List.map_cons, Inquiry.failure?_cons, Option.or_assoc]
      apply read.bind
      intro text
      exact readOthers.map _

/-- A read from the provisioner stops if its field is there and does not wait. -/
theorem stops_readAll_provisioned {name : Attribute} {field : Field String}
    (present : definition.text name = some field) (ready : Field.waits (some field) = false)
    (rest : List Reading) :
    (readAll surroundings definition true (⟨name, .provisioned⟩ :: rest)).Stops world
      (some .cancelled) := by
  have stops : Program.Stops world _ _ :=
    Field.stops_provisioned ready name.name .strict
  have read : Program.Stops world
      (Reading.read ⟨name, .provisioned⟩ surroundings definition true) (some .cancelled) := by
    simp only [Reading.read, present]
    exact (stops.bind_of_some _).bind_of_some _
  exact read.bind_of_some _

end Reading

namespace Definition

variable {definition : Definition} {surroundings : Surroundings}

/-- What is demanded is there. -/
theorem Passes.exists_text {dynamic : Bool} (passes : definition.Passes dynamic)
    {name : Attribute} (required : name ∈ definition.kind.requirements.map (·.name)) :
    ∃ field, definition.text name = some field := by
  obtain ⟨requirement, member, rfl⟩ := List.mem_map.mp required
  have there := passes.requirements _ member
  cases written : definition.text requirement.name with
  | some field => exact ⟨field, rfl⟩
  | none =>
      rw [written] at there
      cases there

/-- The read of provisioned hosts stops before it asks for them. -/
theorem stops_readHosts {attributes : Field Tags}
    (path : Field.waits (definition.text .hostArrayPath) = false)
    (ready : Field.waits (some attributes) = false) :
    (definition.readHosts (some attributes)).Stops world (some .cancelled) := by
  have read : Program.Stops world _ _ := (Field.isLocal_plain (definition.text .hostArrayPath)
    Attribute.hostArrayPath.name).stops (Field.makes_plain _ _)
  rw [Inquiry.failure?_singleton, Field.failure_writtenInquiry, path] at read
  apply read.bind
  intro text
  have mapped : Program.Stops world _ _ :=
    Field.stops_provisionedValue ready Slot.hostAttributes.name .strict
  exact mapped.bind_of_some _

theorem stops_readTarget_of_pool (passes : definition.Passes true)
    (pool : definition.kind = .pdc) (texts : Texts) :
    (definition.readTarget surroundings true texts).Stops world (some .cancelled) := by
  cases target : definition.target
  case pdc hosts filter attributes =>
    obtain ⟨field, mapping, rfl, valued, -⟩ := passes.hostAttributes target
    have path : Field.waits (definition.text .hostArrayPath) = false :=
      Field.waits_eq_false_iff.mpr (passes.hostArrayPath target)
    have ready : Field.waits (some field) = false := by
      cases field with
      | pending => cases valued
      | literal | expression | resolved => rfl
    simp only [readTarget, target, if_true]
    have stops : Program.Stops world _ _ := stops_readHosts path ready
    exact stops.bind_of_some _
  all_goals simp [kind, target, Target.kind] at pool

/-- The texts of a definition are read up to a connector that waits, and else up to where the
reads that are not as written stop. -/
theorem stops_readAll_readings {dynamic : Bool} (passes : definition.Passes dynamic)
    (connected : definition.kind ≠ .customDeployment) {failure : Option Error}
    (behind : (Reading.readAll surroundings definition dynamic
      (definition.kind.readings.dropWhile (·.manner.isWritten))).Stops world failure) :
    (Reading.readAll surroundings definition dynamic definition.kind.readings).Stops world
      ((Field.writtenInquiry definition.connectorRef
        Attribute.connectorRef.name).failure.or failure) := by
  have areWritten : ∀ reading ∈ definition.kind.readings.takeWhile (·.manner.isWritten),
      reading.manner.isWritten = true := by
    intro reading member
    have written := List.mem_takeWhile_imp member
    exact written
  have stops := Reading.stops_readAll_append areWritten behind
  have listed := definition.kind.connectorRef_mem_writtenFirst.mpr connected
  have written := failure?_written passes definition.kind.required_of_writtenFirst
  rw [if_pos listed, ← Kind.map_name_takeWhile_readings, List.map_map] at written
  rw [List.takeWhile_append_dropWhile] at stops
  rw [← written]
  exact stops

/-- A reference to a connector that waits for runtime input is found before any checkpoint. -/
theorem stops_resolveFields_of_waits {dynamic : Bool} (passes : definition.Passes dynamic)
    (connected : definition.kind ≠ .customDeployment)
    (waiting : Field.waits definition.connectorRef = true) :
    (definition.resolveFields surroundings dynamic).Stops world
      (some (.invalidRequest (.runtimeInput Attribute.connectorRef.name))) := by
  have texts : (Reading.readAll surroundings definition dynamic
      definition.kind.readings).Stops world _ := stops_readAll_readings passes connected rfl
  rw [Field.failure_writtenInquiry, waiting, if_pos rfl, Option.some_or] at texts
  exact texts.bind_of_some _

/-- Otherwise the reads of a dynamic definition stop at the first field that may come from the
provisioner. -/
theorem stops_resolveFields_of_ready (passes : definition.Passes true)
    (supports : definition.kind.supportsProvisioning = true)
    (ready : Field.waits definition.connectorRef = false) :
    (definition.resolveFields surroundings true).Stops world (some .cancelled) := by
  have connected := Kind.ne_customDeployment_of_supportsProvisioning supports
  have texts {failure : Option Error}
      (behind : (Reading.readAll surroundings definition true
        (definition.kind.readings.dropWhile (·.manner.isWritten))).Stops world failure) :
      (Reading.readAll surroundings definition true definition.kind.readings).Stops world
        failure := by
    have stops := stops_readAll_readings passes connected behind
    rwa [Field.failure_writtenInquiry, ready, if_neg Bool.false_ne_true, Option.none_or] at stops
  by_cases pool : definition.kind = .pdc
  · have behind : (Reading.readAll surroundings definition true
        (definition.kind.readings.dropWhile (·.manner.isWritten))).Stops world none := by
      rw [pool]
      rfl
    apply (texts behind).bind
    intro read
    exact stops_readTarget_of_pool passes pool read
  · obtain ⟨name, rest, same, required⟩ :=
      definition.kind.exists_dropWhile_readings supports pool
    obtain ⟨field, present⟩ := passes.exists_text required
    have readyField := passes.not_waits required
    rw [present] at readyField
    have behind : (Reading.readAll surroundings definition true
        (⟨name, .provisioned⟩ :: rest)).Stops world (some .cancelled) :=
      Reading.stops_readAll_provisioned present readyField rest
    rw [← same] at behind
    exact (texts behind).bind_of_some _

/-- The reads of a definition that is not dynamic fail where its first optional field waits. -/
theorem stops_resolveFields_of_static (passes : definition.Passes false) :
    (definition.resolveFields surroundings false).Stops world
      (definition.firstWaiting?.map fun name => .invalidRequest (.runtimeInput name)) := by
  rw [← failure?_inquiries passes surroundings.service world.lookup]
  have isLocal := definition.isLocal_resolveFields surroundings
  exact isLocal.stops (makes_resolveFields passes surroundings)

/-! ## The whole run -/

/-- Whether a definition that passes its checks comes to a checkpoint before it fails. -/
def MeetsCheckpoint (definition : Definition) : Prop :=
  if definition.isDynamic then Field.waits definition.connectorRef = false
  else definition.firstWaiting? = none ∧ definition.refersToConnector = true

instance : Decidable definition.MeetsCheckpoint :=
  inferInstanceAs (Decidable (if definition.isDynamic then _ else _))

theorem supportsProvisioning_of_isDynamic (dynamic : definition.isDynamic = true) :
    definition.kind.supportsProvisioning = true := by
  rw [isDynamic, Bool.and_eq_true] at dynamic
  exact dynamic.1

/-- A definition whose reads stop is resolved no further. -/
theorem result_resolve_of_stops (passes : definition.Passes definition.isDynamic) {error : Error}
    (stops : (definition.resolveFields surroundings definition.isDynamic).Stops world
      (some error)) :
    ((definition.resolve surroundings).run world (some 0)).result = .error error := by
  rw [result_resolve, verdict_eq_ok_iff.mpr passes, Program.stops_some_iff.mp stops]
  rfl

/-- A definition whose reads do not stop is cancelled at its reference to a connector. -/
theorem result_resolve_of_stops_none (passes : definition.Passes definition.isDynamic)
    (stops : (definition.resolveFields surroundings definition.isDynamic).Stops world none) :
    ((definition.resolve surroundings).run world (some 0)).result = .error .cancelled ↔
      definition.refersToConnector = true := by
  obtain ⟨base, read⟩ := Run.failure?_eq_none_iff.mp stops
  rw [result_resolve, verdict_eq_ok_iff.mpr passes, read]
  cases definition.refersToConnector <;> simp [bind, Except.bind, isCancelled]

/-- Once the checks have passed, a run that is cancelled from the start ends so if and only if it
comes to a checkpoint. -/
theorem result_resolve_eq_cancelled_iff_of_passes
    (passes : definition.Passes definition.isDynamic) :
    ((definition.resolve surroundings).run world (some 0)).result = .error .cancelled ↔
      definition.MeetsCheckpoint := by
  rw [MeetsCheckpoint]
  cases dynamic : definition.isDynamic with
  | true =>
      have supports := supportsProvisioning_of_isDynamic dynamic
      have provisioned := passes
      rw [dynamic] at provisioned
      rw [if_pos rfl]
      cases waiting : Field.waits definition.connectorRef with
      | true =>
          have connected := Kind.ne_customDeployment_of_supportsProvisioning supports
          have stops : (definition.resolveFields surroundings _).Stops world _ :=
            stops_resolveFields_of_waits passes connected waiting
          rw [result_resolve_of_stops passes stops]
          simp
      | false =>
          have stops : (definition.resolveFields surroundings true).Stops world _ :=
            stops_resolveFields_of_ready provisioned supports waiting
          rw [← dynamic] at stops
          rw [result_resolve_of_stops passes stops]
          simp
  | false =>
      have static := passes
      rw [dynamic] at static
      have stops : (definition.resolveFields surroundings false).Stops world _ :=
        stops_resolveFields_of_static static
      rw [← dynamic] at stops
      rw [if_neg Bool.false_ne_true]
      cases waiting : definition.firstWaiting? with
      | some name =>
          rw [waiting, Option.map_some] at stops
          rw [result_resolve_of_stops passes stops]
          simp
      | none =>
          rw [waiting, Option.map_none] at stops
          rw [result_resolve_of_stops_none passes stops, and_iff_right rfl]

/-- A run that is cancelled from the start ends so if and only if the definition passes its
checks and comes to a checkpoint. -/
theorem result_resolve_eq_cancelled_iff :
    ((definition.resolve surroundings).run world (some 0)).result = .error .cancelled ↔
      definition.verdict definition.isDynamic = .ok () ∧ definition.MeetsCheckpoint := by
  cases verdict : definition.verdict definition.isDynamic with
  | error refused =>
      have other := definition.verdict_ne_cancelled definition.isDynamic
      rw [verdict] at other
      rw [result_resolve, verdict]
      simpa [bind, Except.bind] using other
  | ok passed =>
      rw [result_resolve_eq_cancelled_iff_of_passes (verdict_eq_ok_iff.mp verdict),
        and_iff_right rfl]

/-- Where a run may stop although nothing has to be asked for: in a dynamic definition that is
no pool, or at an empty reference to a connector. -/
def MayStopNeedlessly (definition : Definition) : Prop :=
  definition.isDynamic = true ∧ definition.kind ≠ .pdc ∨
    definition.connectorRef.bind Field.value? = some ""

/-- The hosts of a provisioned pool are asked for, unless the reference to the connector waits. -/
theorem calls_inquiries_ne_nil_of_pool (passes : definition.Passes true)
    (pool : definition.kind = .pdc) (ready : Field.waits definition.connectorRef = false)
    (service : Option Service) (lookup : String → Except Error (Option Json)) :
    Inquiry.calls (definition.inquiries service true lookup) ≠ [] := by
  have texts : Inquiry.failure? (definition.textInquiries service true lookup) = none := by
    have listed : Attribute.connectorRef ∈ definition.kind.writtenFirst := by
      rw [pool]
      decide
    have consulted : definition.consulted service = [] := by
      rw [consulted, pool]
      rfl
    rw [textInquiries, consulted, List.map_nil, List.append_nil,
      failure?_written passes definition.kind.required_of_writtenFirst, if_pos listed,
      Field.failure_writtenInquiry, ready, if_neg Bool.false_ne_true]
  rw [inquiries, Inquiry.calls_append, texts]
  cases target : definition.target
  case pdc hosts filter attributes =>
    have path := Field.waits_eq_false_iff.mpr (passes.hostArrayPath target)
    simp [targetInquiries, target, Inquiry.calls, Field.failure_writtenInquiry, path,
      Inquiry.ask]
  all_goals simp [kind, target, Target.kind] at pool

/-- A run that comes to a checkpoint asks for something, unless it may stop needlessly. -/
theorem calls_resolve_ne_nil (passes : definition.Passes definition.isDynamic)
    (meets : definition.MeetsCheckpoint) (needed : ¬ definition.MayStopNeedlessly) :
    ((definition.resolve surroundings).run world none).calls ≠ [] := by
  obtain ⟨ordinary, filled⟩ := not_or.mp needed
  rw [calls_resolve_of_passes passes, callsOfReading]
  rw [MeetsCheckpoint] at meets
  cases dynamic : definition.isDynamic with
  | true =>
      rw [dynamic] at passes
      rw [dynamic, if_pos rfl] at meets
      have pool : definition.kind = .pdc := by
        by_contra other
        exact ordinary ⟨dynamic, other⟩
      have asked := calls_inquiries_ne_nil_of_pool passes pool meets surroundings.service
        world.lookup
      exact List.append_ne_nil_of_left_ne_nil asked _
  | false =>
      rw [dynamic] at passes
      rw [dynamic, if_neg Bool.false_ne_true, refersToConnector, Option.isSome_iff_exists] at meets
      obtain ⟨unhindered, reference, valued⟩ := meets
      have named : reference ≠ "" := by
        rintro rfl
        exact filled valued
      rw [failure?_inquiries passes, unhindered, connectorCalls, reference?, valued]
      simp [named]

/-- A run that is cancelled from the start is cancelled if and only if the definition passes its
checks and comes to a checkpoint; any other such run ends as it would with no token.  A run that
would ask for anything is always cancelled.  One that would ask for nothing is cancelled only
where it may stop needlessly. -/
theorem result_resolve_interrupted (definition : Definition) (surroundings : Surroundings)
    (world : World) :
    let cut := (definition.resolve surroundings).run world (some 0)
    let full := (definition.resolve surroundings).run world none
    let checked := ((definition.validate surroundings.environment).run world none).result
    (cut.result = .error .cancelled ↔ checked = .ok () ∧ definition.MeetsCheckpoint) ∧
      (cut.result ≠ .error .cancelled → cut.result = full.result) ∧
      (full.calls ≠ [] → cut.result = .error .cancelled) ∧
      (full.calls = [] → cut.result = .error .cancelled → definition.MayStopNeedlessly) := by
  intro cut full checked
  have decided : checked = definition.verdict definition.isDynamic :=
    definition.result_validate surroundings.environment world none
  have stops : cut.result = .error .cancelled ↔
      definition.verdict definition.isDynamic = .ok () ∧ definition.MeetsCheckpoint :=
    result_resolve_eq_cancelled_iff
  have isCut : cut.IsCut 0 full := (definition.guarded_resolve surroundings).isCut_run 0
  refine ⟨decided ▸ stops, ?_, ?_, ?_⟩
  · intro uncancelled
    have ends : cut.result = .error .cancelled ∨ cut.result = full.result :=
      (definition.resolve surroundings).result_runFrom_some 0 0
    exact ends.resolve_left uncancelled
  · intro asks
    exact isCut.cancelled (List.length_pos_iff.mpr asks)
  · intro asksNothing cancelled
    obtain ⟨verdict, meets⟩ := stops.mp cancelled
    by_contra needed
    exact calls_resolve_ne_nil (verdict_eq_ok_iff.mp verdict) meets needed asksNothing

/-- A cluster whose texts are all written down. -/
def writtenCluster (provisioned : Bool) (connector : Option String) : Definition where
  details := ⟨"cluster", "Cluster", .empty, provisioned, none⟩
  text
    | .connectorRef => connector.map .literal
    | .kubeNamespace => some (.literal "web")
    | .releaseName => some (.literal "release")
    | _ => none
  target := .kubernetesDirect

/-- A cluster that refers to a connector is cancelled before it asks for it; one that refers to
none resolves although the run has been cancelled. -/
theorem result_resolve_interrupted_writtenCluster :
    let surroundings : Surroundings :=
      ⟨.unnamed, ⟨"environment", none, .production⟩, none, .empty⟩
    let world : World := ⟨fun _ => .ok none, fun _ => .ok none⟩
    (((writtenCluster false (some "account")).resolve surroundings).run world (some 0)).result =
        .error .cancelled ∧
      ∃ outcome, (((writtenCluster false none).resolve surroundings).run world
        (some 0)).result = .ok outcome := by
  intro surroundings world
  obtain ⟨-, -, cancelled, -⟩ :=
    result_resolve_interrupted (writtenCluster false (some "account")) surroundings world
  obtain ⟨stops, unhindered, -, -⟩ :=
    result_resolve_interrupted (writtenCluster false none) surroundings world
  constructor
  · exact cancelled (by decide)
  · refine ⟨_, (unhindered ?_).trans rfl⟩
    intro cancelled
    have meets := (stops.mp cancelled).2
    exact absurd meets (by decide)

/-- A dynamic cluster without expressions asks for nothing, and neither does one with an empty
reference to a connector.  Both are cancelled nevertheless. -/
theorem cancelled_without_calls :
    let surroundings : Surroundings :=
      ⟨.unnamed, ⟨"environment", none, .production⟩, none, .empty⟩
    let world : World := ⟨fun _ => .ok none, fun _ => .ok none⟩
    ∀ definition ∈ [writtenCluster true none, writtenCluster false (some "")],
      ((definition.resolve surroundings).run world none).calls = [] ∧
      (∃ outcome, ((definition.resolve surroundings).run world none).result = .ok outcome) ∧
      ((definition.resolve surroundings).run world (some 0)).result = .error .cancelled := by
  intro surroundings world definition member
  simp only [List.mem_cons, List.not_mem_nil, or_false] at member
  rcases member with rfl | rfl
  · exact ⟨rfl, ⟨_, rfl⟩, rfl⟩
  · exact ⟨rfl, ⟨_, rfl⟩, rfl⟩

end Definition

end DeployTarget
