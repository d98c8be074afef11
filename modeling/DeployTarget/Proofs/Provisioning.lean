import DeployTarget.Proofs.Calls
import DeployTarget.Proofs.Presence
import DeployTarget.Proofs.Settling
import DeployTarget.Proofs.Texts

/-!
# Provisioning is substitution

Settling a definition writes the values that an evaluator supplies in the place of the
expressions that are consulted, and clears the flag that says that fields come from a
provisioner.  If a definition resolves, and no supplied text is empty or defers to runtime
input, then the settled definition passes its checks and resolves to the same outcome
without the evaluator.
-/

namespace DeployTarget

namespace Kind

/-! ## Which attributes are consulted -/

/-- The way in which an attribute is read tells whether it is consulted. -/
theorem consulted_of_reading (kind : Kind) : ∀ reading ∈ kind.readings,
    (reading.manner = .provisioned →
      reading.name ∈ kind.consulted ∧ reading.name ≠ .releaseName) ∧
    (reading.manner = .release →
      reading.name ∈ kind.consulted ∧ reading.name = .releaseName) ∧
    (reading.manner ∉ [.provisioned, .release] → reading.name ∉ kind.consulted) := by
  cases kind <;> decide

/-- Apart from the release name, what is consulted is read from the provisioner. -/
theorem mem_readings_of_consulted (kind : Kind) : ∀ name ∈ kind.consulted,
    name ≠ .releaseName → (⟨name, .provisioned⟩ : Reading) ∈ kind.readings := by
  cases kind <;> decide

/-- Only kinds that can be provisioned consult anything. -/
theorem supportsProvisioning_of_consulted (kind : Kind) :
    ∀ name ∈ kind.consulted, kind.supportsProvisioning = true := by
  cases kind <;> decide

theorem connectorRef_not_mem_consulted (kind : Kind) : .connectorRef ∉ kind.consulted := by
  cases kind <;> decide

theorem hostConnectionType_not_mem_consulted (kind : Kind) :
    .hostConnectionType ∉ kind.consulted := by
  cases kind <;> decide

theorem not_mem_consulted_of_scanned (kind : Kind) :
    ∀ name ∈ kind.scanned, name ∉ kind.consulted := by
  cases kind <;> decide

/-- What static definitions must have resolved is consulted in dynamic ones. -/
theorem consulted_of_scannedWhenStatic (kind : Kind) :
    ∀ name ∈ kind.scannedWhenStatic, name ∈ kind.consulted ∧ name ≠ .releaseName := by
  cases kind <;> decide

/-- What must have a value is scanned, in all definitions or in static ones. -/
theorem scanned_of_requirement (kind : Kind) : ∀ requirement ∈ kind.requirements,
    requirement.presence = .value →
      requirement.name ∈ kind.scanned ∨ requirement.name ∈ kind.scannedWhenStatic := by
  cases kind <;> decide

end Kind

/-! ## Settled definitions -/

/-- The target with its tags settled, or without them if their expression has no value. -/
def Target.settled (lookup : String → Except Error (Option Json)) : Target → Target
  | .sshWinRmAws filter =>
      .sshWinRmAws (filter.map fun filter =>
        { filter with tags := Field.settledOrAbsent lookup filter.tags })
  | .sshWinRmAzure hostTags => .sshWinRmAzure (Field.settledOrAbsent lookup hostTags)
  | other => other

namespace Definition

/-- The definition whose consulted fields are settled and which is not dynamic any more. -/
def settled (definition : Definition) (service : Option Service)
    (lookup : String → Except Error (Option Json)) : Definition where
  details := { definition.details with provisioned := false }
  text name :=
    if name ∈ definition.consulted service then
      (definition.text name).map (Field.settled lookup)
    else definition.text name
  target := definition.target.settled lookup

variable {definition : Definition} {service : Option Service}
  {lookup : String → Except Error (Option Json)}

@[simp]
theorem kind_settled : (definition.settled service lookup).kind = definition.kind := by
  obtain ⟨details, text, target⟩ := definition
  cases target <;> rfl

theorem isDynamic_settled : (definition.settled service lookup).isDynamic = false := by
  simp [isDynamic, settled]

@[simp]
theorem template?_settled :
    (definition.settled service lookup).template? = definition.template? := by
  obtain ⟨details, text, target⟩ := definition
  cases target <;> rfl

theorem text_settled_of_mem {name : Attribute} (consulted : name ∈ definition.consulted service) :
    (definition.settled service lookup).text name =
      (definition.text name).map (Field.settled lookup) :=
  if_pos consulted

/-- An attribute that is not consulted stays as it is. -/
theorem text_settled_of_not_mem {name : Attribute}
    (other : name ∉ definition.consulted service) :
    (definition.settled service lookup).text name = definition.text name :=
  if_neg other

theorem text_settled_of_not_mem_kind {name : Attribute}
    (other : name ∉ definition.kind.consulted) :
    (definition.settled service lookup).text name = definition.text name :=
  text_settled_of_not_mem fun consulted => other (List.mem_filter.mp consulted).1

theorem connectorRef_settled :
    (definition.settled service lookup).connectorRef = definition.connectorRef :=
  text_settled_of_not_mem_kind definition.kind.connectorRef_not_mem_consulted

/-- Only the release name is consulted depending on the service. -/
theorem mem_consulted {name : Attribute} (consulted : name ∈ definition.kind.consulted)
    (ordinary : name ≠ .releaseName) : name ∈ definition.consulted service := by
  simp [Definition.consulted, consulted, ordinary]

theorem isDynamic_of_provisioned (flagged : definition.details.provisioned = true) :
    definition.isDynamic = definition.kind.supportsProvisioning := by
  rw [isDynamic, flagged, Bool.and_true]

theorem isDynamic_of_consulted (flagged : definition.details.provisioned = true)
    {name : Attribute} (consulted : name ∈ definition.kind.consulted) :
    definition.isDynamic = true :=
  (isDynamic_of_provisioned flagged).trans
    (definition.kind.supportsProvisioning_of_consulted name consulted)

/-! ## Reading a settled definition -/

section Reading

variable {world other : World} {surroundings : Surroundings}

/-- What is read as it is written is read alike from the settled definition. -/
private theorem matched_read_written {reading : Reading}
    (written : reading.manner ∉ [Manner.provisioned, .release])
    (unconsulted : reading.name ∉ definition.kind.consulted) :
    Program.Matched world other (reading.read surroundings definition definition.isDynamic)
      (reading.read surroundings (definition.settled surroundings.service world.lookup)
        false) := by
  obtain ⟨name, manner⟩ := reading
  have plain : Program.Matched world other _ _ :=
    (Field.endsAs_plain (definition.text name) name.name).matched
  simp only [Reading.read, text_settled_of_not_mem_kind unconsulted]
  cases manner with
  | plain => exact plain.map fun text => some (text.getD "")
  | plainOrAbsent => exact plain
  | plainOrBlank => exact plain.map fun text => text.filter (· ≠ "")
  | provisioned => simp at written
  | release => simp at written

/-- Every attribute of the kind is read alike from the settled definition. -/
private theorem matched_read (flagged : definition.details.provisioned = true)
    {reading : Reading} (member : reading ∈ definition.kind.readings) :
    Program.Matched world other (reading.read surroundings definition definition.isDynamic)
      (reading.read surroundings (definition.settled surroundings.service world.lookup)
        false) := by
  obtain ⟨name, manner⟩ := reading
  obtain ⟨ofProvisioned, ofRelease, ofWritten⟩ :=
    definition.kind.consulted_of_reading _ member
  cases manner with
  | plain | plainOrAbsent | plainOrBlank =>
      exact matched_read_written (by simp) (ofWritten (by simp))
  | provisioned =>
      obtain ⟨consulted, ordinary⟩ := ofProvisioned rfl
      simp only [Reading.read, isDynamic_of_consulted flagged consulted,
        text_settled_of_mem (mem_consulted consulted ordinary)]
      have kept : Mode.strict ≠ .drop := by decide
      exact ((Field.matched_provisioned kept _ _).map fun text => text.getD "").map some
  | release =>
      obtain ⟨consulted, rfl⟩ := ofRelease rfl
      simp only [Reading.read, isDynamic_of_consulted flagged consulted, Field.releaseName]
      refine Program.Matched.map ?_ some
      cases pinned : surroundings.service.bind Service.release? with
      | some release => exact Program.matched_pure release
      | none =>
          have asked : .releaseName ∈ definition.consulted surroundings.service := by
            simp [Definition.consulted, consulted, pinned]
          rw [text_settled_of_mem asked]
          have kept : Mode.keep ≠ .drop := by decide
          exact (Field.matched_provisioned kept _ _).map fun text => text.getD ""

private theorem matched_readAll {readings : List Reading}
    (matched : ∀ reading ∈ readings, Program.Matched world other
      (reading.read surroundings definition definition.isDynamic)
      (reading.read surroundings (definition.settled surroundings.service world.lookup)
        false)) :
    Program.Matched world other
      (Reading.readAll surroundings definition definition.isDynamic readings)
      (Reading.readAll surroundings
        (definition.settled surroundings.service world.lookup) false readings) := by
  induction readings with
  | nil => exact Program.matched_pure []
  | cons reading rest ih =>
      obtain ⟨first, others⟩ := List.forall_mem_cons.mp matched
      exact first.bind fun text => (ih others).map _

private theorem matched_readVariables (entries : List Variable) :
    Program.Matched world other (readVariables entries) (readVariables entries) := by
  induction entries with
  | nil => exact Program.matched_pure []
  | cons entry rest ih =>
      exact (Field.endsAs_plain entry.value entry.name).matched.bind fun text => ih.map _

/-- Apart from pools, which report less if they are provisioned, the same texts make the
same outcome. -/
private theorem outcome_settled (ordinary : definition.kind ≠ .pdc) (dynamic : Bool)
    (texts : Texts) (extra : Outcome.Extra) :
    (definition.settled service lookup).outcome surroundings false texts extra =
      definition.outcome surroundings dynamic texts extra := by
  have details : (definition.settled service lookup).details =
      { definition.details with provisioned := false } :=
    rfl
  have sameKey : (definition.settled service lookup).keyText? texts =
      definition.keyText? texts := by
    funext part
    cases part <;> simp [keyText?, details]
  simp [outcome, common, key, reported, sameKey, ordinary, details]

/-- What only the kind has is read alike from the settled definition. -/
private theorem matched_readTarget (ordinary : definition.kind ≠ .pdc)
    (flagged : definition.details.provisioned = true) (texts : Texts) :
    Program.Matched world other
      (definition.readTarget surroundings definition.isDynamic texts)
      ((definition.settled surroundings.service world.lookup).readTarget surroundings false
        texts) := by
  have connection : Program.Matched world other
      (readConnectionType surroundings definition definition.isDynamic)
      (readConnectionType surroundings
        (definition.settled surroundings.service world.lookup) false) :=
    matched_readAll <| List.forall_mem_singleton.mpr <|
      matched_read_written (by simp) definition.kind.hostConnectionType_not_mem_consulted
  have settledTarget : (definition.settled surroundings.service world.lookup).target =
      definition.target.settled world.lookup := rfl
  simp only [readTarget, settledTarget, outcome_settled ordinary definition.isDynamic]
  cases target : definition.target
  case pdc => exact absurd (congrArg Target.kind target) ordinary
  case sshWinRmAws filter =>
    have dynamic : definition.isDynamic = true := by
      rw [isDynamic_of_provisioned flagged, kind, target]
      rfl
    have sameTags : (filter.map fun filter => { filter with
        tags := Field.settledOrAbsent world.lookup filter.tags }).bind InstanceFilter.tags =
          Field.settledOrAbsent world.lookup (filter.bind InstanceFilter.tags) := by
      cases filter <;> rfl
    simp only [Target.settled, sameTags]
    rw [dynamic] at connection ⊢
    exact (Field.matched_provisionedValue _ _).bind fun tags => connection.map _
  case sshWinRmAzure hostTags =>
    have dynamic : definition.isDynamic = true := by
      rw [isDynamic_of_provisioned flagged, kind, target]
      rfl
    rw [dynamic] at connection ⊢
    exact (Field.matched_provisionedValue _ _).bind fun tags => connection.map _
  case customDeployment reference settings =>
    exact (matched_readVariables settings).map _
  all_goals exact Program.matched_pure _

/-- A definition that is read successfully is read alike once it is settled. -/
theorem matched_resolveFields (ordinary : definition.kind ≠ .pdc)
    (flagged : definition.details.provisioned = true) :
    Program.Matched world other
      (definition.resolveFields surroundings definition.isDynamic)
      ((definition.settled surroundings.service world.lookup).resolveFields surroundings
        false) := by
  unfold resolveFields
  rw [kind_settled]
  exact (matched_readAll fun _ member => matched_read flagged member).bind fun texts =>
    matched_readTarget ordinary flagged texts

/-- A consulted attribute has a value once a definition that was read is settled. -/
theorem unresolved?_settled (flagged : definition.details.provisioned = true)
    {texts : Texts}
    (read : definition.Reads surroundings definition.isDynamic world texts)
    {name : Attribute} (consulted : name ∈ definition.kind.consulted)
    (ordinary : name ≠ .releaseName) :
    (definition.settled surroundings.service world.lookup).unresolved? name = none := by
  rw [unresolved?, text_settled_of_mem (mem_consulted consulted ordinary)]
  rcases Field.exists_expression_or_settled_eq world.lookup (definition.text name) with
    ⟨text, written⟩ | ⟨resolved, same⟩
  · have readOne := read _ (definition.kind.mem_readings_of_consulted name consulted ordinary)
    rw [isDynamic_of_consulted flagged consulted] at readOne
    obtain ⟨_, readText, -⟩ := Program.result_run_bind_eq_ok.mp readOne
    obtain ⟨_, readField, -⟩ := Program.result_run_bind_eq_ok.mp readText
    rw [written] at readField
    obtain ⟨value, supplied⟩ := Field.exists_supplied?_of_strict readField
    simp [written, Field.settled, supplied, Field.unresolved?]
  · rwa [same]

end Reading

/-! ## Checking a settled definition -/

section Checking

open Validation

/-- The texts that an evaluator supplies for the consulted attributes are not empty and do
not defer to runtime input. -/
def SuppliesProperTexts (definition : Definition) (service : Option Service)
    (lookup : String → Except Error (Option Json)) : Prop :=
  ∀ name ∈ definition.consulted service, ∀ text value,
    definition.text name = some (.expression text) →
    Field.supplied? String lookup text = some value →
      value ≠ "" ∧ Field.isRuntimeInputText value = false

/-- A required attribute is still there once the definition is settled. -/
private theorem violation?_settled {dynamic : Bool} {label : String} {presence : Presence}
    (proper : definition.SuppliesProperTexts service lookup) {name : Attribute}
    (present : violation? dynamic (definition.text name) label presence = none) :
    violation? dynamic ((definition.settled service lookup).text name) label presence =
      none := by
  by_cases consulted : name ∈ definition.consulted service
  · rw [text_settled_of_mem consulted]
    rcases Field.exists_expression_or_settled_eq lookup (definition.text name) with
      ⟨text, written⟩ | ⟨-, same⟩
    · rw [written, Option.map_some, Field.settled]
      cases supplied : Field.supplied? String lookup text with
      | none => rwa [written] at present
      | some value =>
          obtain ⟨notEmpty, notPending⟩ := proper name consulted text value written supplied
          simp [violation?, Field.value?, FieldValue.isInputMarker, FieldValue.isBlank,
            notEmpty, notPending]
    · rwa [same]
  · rwa [text_settled_of_not_mem consulted]

/-- Without a provisioner an attribute passes if, where it needs a value, it has one. -/
private theorem violation?_of_resolved {dynamic : Bool} {field : Option (Field String)}
    {label : String} {presence : Presence}
    (present : violation? dynamic field label presence = none)
    (resolved : presence = .value → field.bind Field.unresolved? = none) :
    violation? false field label presence = none := by
  rw [violation?_eq_none_iff] at present ⊢
  refine present.imp_right fun ⟨_, expressed⟩ => ⟨.inr ?_, expressed⟩
  cases presence with
  | value => exact absurd expressed (not_hasExpression_of_resolved (resolved rfl))
  | valueOrExpression => rfl

private theorem checkTemplate_settled :
    (definition.settled service lookup).checkTemplate = definition.checkTemplate := by
  obtain ⟨details, text, target⟩ := definition
  cases target <;> rfl

private theorem scannedTexts_settled :
    (definition.settled service lookup).scannedTexts = definition.scannedTexts := by
  obtain ⟨details, text, target⟩ := definition
  cases target <;> rfl

/-- Only pools have alternatives of which one must be resolved. -/
private theorem checkAlternatives_of_ne_pdc (ordinary : definition.kind ≠ .pdc) :
    definition.checkAlternatives = .ok () := by
  unfold checkAlternatives
  split
  next pool => exact absurd (congrArg Target.kind pool) ordinary
  next => rfl

/-- The rules of other kinds than pools do not depend on what is settled. -/
private theorem checkTarget_settled (ordinary : definition.kind ≠ .pdc) (dynamic : Bool) :
    (definition.settled service lookup).checkTarget false = definition.checkTarget dynamic := by
  obtain ⟨details, text, target⟩ := definition
  cases target with
  | pdc hosts filter attributes => exact absurd rfl ordinary
  | sshWinRmAws filter => cases filter <;> rfl
  | customDeployment reference settings => cases reference <;> rfl
  | _ => rfl

/-- A definition that passes its checks and is read successfully passes them once it is
settled. -/
theorem passes_settled {world : World} {surroundings : Surroundings}
    (ordinary : definition.kind ≠ .pdc) (flagged : definition.details.provisioned = true)
    (proper : definition.SuppliesProperTexts surroundings.service world.lookup)
    (passes : definition.Passes definition.isDynamic) {texts : Texts}
    (read : definition.Reads surroundings definition.isDynamic world texts) :
    (definition.settled surroundings.service world.lookup).Passes false where
  template := checkTemplate_settled.trans passes.template
  scanned name member := by
    rw [kind_settled] at member
    rw [unresolved?, text_settled_of_not_mem_kind
      (definition.kind.not_mem_consulted_of_scanned name member)]
    exact passes.scanned name member
  texts := by
    rw [scannedTexts_settled]
    exact passes.texts
  scannedWhenStatic _ name member := by
    rw [kind_settled] at member
    obtain ⟨consulted, ordinary⟩ :=
      definition.kind.consulted_of_scannedWhenStatic name member
    exact unresolved?_settled flagged read consulted ordinary
  alternatives := checkAlternatives_of_ne_pdc (by rwa [kind_settled])
  requirements requirement member := by
    rw [kind_settled] at member
    refine violation?_of_resolved
      (violation?_settled proper (passes.requirements requirement member)) fun demanded => ?_
    rcases definition.kind.scanned_of_requirement requirement member demanded with
      scanned | scanned
    · rw [text_settled_of_not_mem_kind
        (definition.kind.not_mem_consulted_of_scanned _ scanned)]
      exact passes.scanned _ scanned
    · obtain ⟨consulted, ordinary⟩ :=
        definition.kind.consulted_of_scannedWhenStatic _ scanned
      exact unresolved?_settled flagged read consulted ordinary
  target := (checkTarget_settled ordinary _).trans passes.target

end Checking

/-! ## The whole run -/

/-- The connector is asked for under the same reference. -/
private theorem withConnector_settled (store : ConnectorRequest → ConnectorAnswer)
    (scope : Scope) (outcome : Outcome) :
    (definition.settled service lookup).withConnector store scope outcome =
      definition.withConnector store scope outcome := by
  rw [withConnector, withConnector, connectorRef_settled]

/-- A definition of any kind but a pool that says that its fields come from a provisioner,
and that resolves with proper texts, is settled to a definition that passes its checks and
resolves to the same outcome, whatever evaluator it is given. -/
theorem resolve_settled (definition : Definition) (surroundings : Surroundings)
    (world : World) (outcome : Outcome) (ordinary : definition.kind ≠ .pdc)
    (flagged : definition.details.provisioned = true)
    (proper : definition.SuppliesProperTexts surroundings.service world.lookup)
    (resolves : ((definition.resolve surroundings).run world none).result = .ok outcome)
    (evaluator : String → Except Error (Option Json)) :
    let literal := definition.settled surroundings.service world.lookup
    let other : World := ⟨evaluator, world.connector⟩
    ((literal.validate surroundings.environment).run other none).result = .ok () ∧
      ((literal.resolve surroundings).run other none).result = .ok outcome := by
  intro literal other
  obtain ⟨passes, base, readFields, rfl⟩ := resolve_eq_ok_iff.mp resolves
  obtain ⟨texts, extra, read, -, -⟩ := exists_of_resolve_eq_ok resolves
  have passesLiteral : literal.Passes literal.isDynamic := by
    rw [isDynamic_settled]
    exact passes_settled ordinary flagged proper passes read
  constructor
  · rw [(literal.endsAs_validate surroundings.environment).result other]
    exact verdict_eq_ok_iff.mpr passesLiteral
  · refine resolve_eq_ok_iff.mpr ⟨passesLiteral, base, ?_, withConnector_settled _ _ _⟩
    rw [isDynamic_settled]
    exact matched_resolveFields ordinary flagged base readFields

/-- A cluster whose namespace and release name are expressions. -/
def sampleCluster : Definition where
  details := ⟨"cluster", "Cluster", .empty, true, none⟩
  text
    | .connectorRef => some (.literal "connector")
    | .kubeNamespace => some (.expression "<+namespace>")
    | .releaseName => some (.expression "<+release>")
    | _ => none
  target := .kubernetesDirect

/-- A supplied namespace can be written into the cluster; the release name, which has no
value, keeps its expression. -/
theorem resolve_settled_sampleCluster :
    let surroundings : Surroundings :=
      ⟨.unnamed, ⟨"environment", none, .production⟩, none, .empty⟩
    let lookup : String → Except Error (Option Json) := fun text =>
      .ok (if text = "<+namespace>" then some (.string "web") else none)
    let evaluator : String → Except Error (Option Json) := fun text =>
      .error (.resolution text .noValue)
    let settled := sampleCluster.settled none lookup
    settled.text .kubeNamespace = some (.literal "web") ∧
    ∃ outcome,
      ((sampleCluster.resolve surroundings).run ⟨lookup, fun _ => .ok none⟩ none).result =
        .ok outcome ∧
      ((settled.resolve surroundings).run ⟨evaluator, fun _ => .ok none⟩ none).result =
        .ok outcome := by
  intro surroundings lookup evaluator settled
  have proper : sampleCluster.SuppliesProperTexts none lookup := by
    intro name consulted text value written supplied
    have member : name = .kubeNamespace ∨ name = .releaseName := by
      simpa [Definition.consulted, Kind.consulted, kind, sampleCluster, Target.kind]
        using consulted
    rcases member with rfl | rfl
    · cases written
      cases supplied
      decide
    · cases written
      cases supplied
  refine ⟨rfl, _, rfl, ?_⟩
  exact (resolve_settled sampleCluster surroundings ⟨lookup, fun _ => .ok none⟩ _
    (by decide) rfl proper rfl evaluator).2

end Definition

end DeployTarget
