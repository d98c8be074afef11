import DeployTarget.Proofs.Texts
import Mathlib.Data.List.Basic

/-!
# What the key is made of

The key of an outcome is the digest of what the outcome reports, in the order in which the
parts of a key are listed for its kind.  A part that is absent adds an empty segment.  Only
a pool leaves out the segment of its connector, and because a provisioned pool does not
report the connector, the reference in the definition stands for it there.
-/

namespace DeployTarget

/-! ## The listed parts -/

/-- The attribute whose text is a part of a key. -/
def KeyPart.attribute? : KeyPart → Option Attribute
  | .text name => some name
  | _ => none

namespace Kind

/-- The parts that are digested are the listed ones, in the listed order. -/
theorem digested_eq_keyParts (kind : Kind) : kind.digested = kind.keyParts := by
  cases kind <;> rfl

/-- The attributes among the parts of a kind's key. -/
def keyAttributes (kind : Kind) : List Attribute :=
  kind.keyParts.filterMap KeyPart.attribute?

theorem mem_keyAttributes {kind : Kind} {name : Attribute}
    (listed : KeyPart.text name ∈ kind.keyParts) : name ∈ kind.keyAttributes :=
  List.mem_filterMap.mpr ⟨_, listed, rfl⟩

/-- Every part of a key is an attribute of the kind. -/
theorem keyAttributes_subset (kind : Kind) :
    ∀ name ∈ kind.keyAttributes, name ∈ kind.attributes := by
  cases kind <;> decide

/-- Every part of a key is read, and only a pool can do without its connector. -/
theorem exists_reading_of_mem_keyAttributes (kind : Kind) :
    ∀ name ∈ kind.keyAttributes, ¬(kind = .pdc ∧ name = .connectorRef) →
      ∃ reading ∈ kind.readings, reading.name = name ∧ reading.manner.isTotal = true := by
  cases kind <;> decide

/-- Only a custom target is identified by its template. -/
theorem eq_customDeployment_of_mem_keyParts {kind : Kind}
    (listed : KeyPart.templateRef ∈ kind.keyParts ∨ KeyPart.versionLabel ∈ kind.keyParts) :
    kind = .customDeployment := by
  cases kind <;> first | rfl | simp [keyParts] at listed

end Kind

namespace Outcome

/-- The template that an outcome reports. -/
def Extra.template? : Extra → Option TemplateRef
  | .template reference _ => some reference
  | _ => Option.none

/-- Whether an outcome is that of a provisioned pool. -/
def Extra.isProvisionedPool : Extra → Bool
  | .provisionedPool _ _ _ => true
  | _ => false

/-- What an outcome reports for a part of the key. -/
def reported? (outcome : Outcome) : KeyPart → Option String
  | .text name => outcome.texts.lookup name
  | .templateRef => outcome.extra.template?.map TemplateRef.template
  | .versionLabel => outcome.extra.template?.map TemplateRef.version
  | .infraIdentifier => some outcome.common.identifier

end Outcome

namespace Definition

/-- The text of an attribute as it is written. -/
def writtenText? (definition : Definition) (name : Attribute) : Option String :=
  (definition.text name).bind Field.valueOrExpression?

/-- The connector of a pool, unless it is empty: the one that is reported or, for a
provisioned pool, which reports none, the one that is written. -/
def poolConnector? (definition : Definition) (outcome : Outcome) : Option String :=
  (if outcome.extra.isProvisionedPool then definition.writtenText? .connectorRef
    else outcome.reported? (.text .connectorRef)).filter (· ≠ "")

/-- The segments that one part adds to the key. -/
def partSegments (definition : Definition) (outcome : Outcome) (part : KeyPart) :
    List String :=
  if definition.kind = .pdc ∧ part = .text .connectorRef then
    (definition.poolConnector? outcome).toList
  else [(outcome.reported? part).getD ""]

/-- The segments of the key behind the service and the environment, in the order in which
the parts are listed. -/
def segments (definition : Definition) (outcome : Outcome) : List String :=
  definition.kind.keyParts.flatMap (definition.partSegments outcome)

/-! ## Texts and reports -/

private theorem lookup_filterMap {names : List Attribute} {texts : Texts} {name : Attribute}
    (listed : name ∈ names) :
    (names.filterMap fun name => (texts.lookup name).map fun text => (name, text)).lookup
        name =
      texts.lookup name := by
  have unlisted (others : List Attribute) (absent : texts.lookup name = none) :
      (others.filterMap fun name =>
        (texts.lookup name).map fun text => (name, text)).lookup name = none := by
    rw [List.lookup_eq_none_iff]
    rintro ⟨other, text⟩ member
    obtain ⟨_, -, entry⟩ := List.mem_filterMap.mp member
    obtain ⟨_, found, ⟨⟩⟩ := Option.map_eq_some_iff.mp entry
    rw [bne_iff_ne]
    rintro rfl
    rw [absent] at found
    cases found
  induction names with
  | nil => cases listed
  | cons first rest ih =>
      by_cases same : name = first
      · subst same
        cases found : texts.lookup name with
        | none => exact unlisted _ found
        | some text => simp [found]
      · have later : name ∈ rest := (List.mem_cons.mp listed).resolve_left same
        cases found : texts.lookup first with
        | none => simpa [found] using ih later
        | some text => simpa [found, lookup_cons_of_ne same] using ih later

variable {world : World} {surroundings : Surroundings} {definition : Definition}
  {dynamic : Bool} {texts : Texts} {extra : Outcome.Extra}

/-- An outcome reports the text that was read. -/
theorem reported?_outcome {name : Attribute} (listed : name ∈ definition.reported dynamic) :
    (definition.outcome surroundings dynamic texts extra).reported? (.text name) =
      texts.lookup name :=
  lookup_filterMap listed

/-- A text that is read as it is written is a view of what is written. -/
private theorem lookup_of_plain {reading : Reading}
    (read : definition.Reads surroundings dynamic world texts)
    (listed : reading ∈ definition.kind.readings) (view : Option String → Option String)
    (plain : reading.read surroundings definition dynamic =
      view <$> Field.plain (definition.text reading.name) reading.name.name) :
    texts.lookup reading.name = view (definition.writtenText? reading.name) := by
  have readOne := read reading listed
  rw [plain] at readOne
  obtain ⟨text, written, same⟩ := Program.result_run_bind_eq_ok.mp readOne
  rw [(Field.endsAs_plain _ _).result world, Field.written_eq_ok_iff] at written
  rw [writtenText?, written.2]
  exact (Except.ok.inj same).symm

/-- A pool keeps the text of its connector unless that is empty. -/
theorem lookup_connectorRef (pool : definition.kind = .pdc)
    (read : definition.Reads surroundings dynamic world texts) :
    texts.lookup .connectorRef = (definition.writtenText? .connectorRef).filter (· ≠ "") := by
  have listed : ⟨.connectorRef, .plainOrBlank⟩ ∈ definition.kind.readings := by
    rw [pool]
    decide
  exact lookup_of_plain read listed (fun text => text.filter (· ≠ "")) rfl

/-- The text of a pool's credentials is empty where it is absent. -/
private theorem lookup_credentialsRef (pool : definition.kind = .pdc)
    (read : definition.Reads surroundings dynamic world texts) :
    texts.lookup .credentialsRef = some ((definition.writtenText? .credentialsRef).getD "") := by
  have listed : ⟨.credentialsRef, .plain⟩ ∈ definition.kind.readings := by
    rw [pool]
    decide
  exact lookup_of_plain read listed (fun text => some (text.getD "")) rfl

private theorem poolConnector?_outcome (pool : definition.kind = .pdc)
    (read : definition.Reads surroundings dynamic world texts)
    (carries : definition.Carries dynamic extra) :
    definition.poolConnector? (definition.outcome surroundings dynamic texts extra) =
      texts.lookup .connectorRef := by
  have kept := lookup_connectorRef pool read
  have shape := carries.pool pool
  cases dynamic with
  | true =>
      obtain ⟨hosts, attributes, filter, rfl⟩ := shape
      exact kept.symm
  | false =>
      obtain ⟨hosts, filter, rfl⟩ := shape
      have listed : Attribute.connectorRef ∈ definition.reported false := by
        simp only [reported, pool]
        decide
      rw [poolConnector?, reported?_outcome listed, kept]
      simp [outcome, Outcome.Extra.isProvisionedPool]

/-- Apart from the connector of a pool, a text that is part of the key is reported. -/
private theorem mem_reported {name : Attribute} (listed : name ∈ definition.kind.keyAttributes)
    (ordinary : ¬(definition.kind = .pdc ∧ name = .connectorRef)) :
    name ∈ definition.reported dynamic := by
  unfold reported
  split
  next pool =>
    rw [pool.1] at listed
    have only : ∀ name ∈ Kind.pdc.keyAttributes, name = .connectorRef ∨
        name ∈ [Attribute.credentialsRef] := by decide
    exact (only name listed).resolve_left fun same => ordinary ⟨pool.1, same⟩
  next => exact definition.kind.keyAttributes_subset name listed

/-- What a part adds to the digest is what the outcome reports for it. -/
private theorem toList_keyText? (read : definition.Reads surroundings dynamic world texts)
    (carries : definition.Carries dynamic extra) :
    ∀ part ∈ definition.kind.keyParts, (definition.keyText? texts part).toList =
      definition.partSegments (definition.outcome surroundings dynamic texts extra) part := by
  intro part listed
  have template (listed : KeyPart.templateRef ∈ definition.kind.keyParts ∨
      KeyPart.versionLabel ∈ definition.kind.keyParts) :
      extra.template? = some (definition.template?.getD ⟨"", ""⟩) := by
    have custom := Kind.eq_customDeployment_of_mem_keyParts listed
    cases target : definition.target <;> simp only [kind, target, Target.kind] at custom <;>
      try cases custom
    obtain ⟨values, rfl⟩ := carries.template _ _ target
    simp [Outcome.Extra.template?, template?, target]
  cases part with
  | text name =>
      have listed := Kind.mem_keyAttributes listed
      by_cases pool : definition.kind = .pdc ∧ name = .connectorRef
      · obtain ⟨pool, rfl⟩ := pool
        simp [partSegments, pool, poolConnector?_outcome pool read carries, keyText?]
      · obtain ⟨reading, member, rfl, total⟩ :=
          definition.kind.exists_reading_of_mem_keyAttributes name listed pool
        obtain ⟨text, found⟩ :=
          Option.isSome_iff_exists.mp (Reading.isSome_of_isTotal total (read reading member))
        simp [partSegments, pool, reported?_outcome (mem_reported listed pool), keyText?, found]
  | templateRef =>
      simp [partSegments, Outcome.reported?, outcome, template (.inl listed), keyText?]
      cases definition.template? <;> rfl
  | versionLabel =>
      simp [partSegments, Outcome.reported?, outcome, template (.inr listed), keyText?]
      cases definition.template? <;> rfl
  | infraIdentifier => simp [partSegments, Outcome.reported?, outcome, common, keyText?]

/-! ## The key of an outcome -/

/-- The texts that were read give the key the segments that the outcome reports. -/
private theorem key_eq_generate_segments (read : definition.Reads surroundings dynamic world texts)
    (carries : definition.Carries dynamic extra) :
    definition.key surroundings texts =
      Key.generate (surroundings.service.map Service.identifier)
        surroundings.environment.identifier
        (definition.segments (definition.outcome surroundings dynamic texts extra)) := by
  rw [key, segments, Kind.digested_eq_keyParts, List.filterMap_eq_flatMap_toList,
    List.flatMap_congr (toList_keyText? read carries)]

/-- The key of a pool depends on its written credentials and connector alone. -/
private theorem key_of_pool (pool : definition.kind = .pdc)
    (read : definition.Reads surroundings dynamic world texts) :
    definition.key surroundings texts =
      Key.generate (surroundings.service.map Service.identifier)
        surroundings.environment.identifier
        ((definition.writtenText? .credentialsRef).getD "" ::
          ((definition.writtenText? .connectorRef).filter (· ≠ "")).toList) := by
  have connector := lookup_connectorRef pool read
  have credentials := lookup_credentialsRef pool read
  rw [key, pool, List.filterMap_eq_flatMap_toList]
  simp only [Kind.digested, List.flatMap_cons, List.flatMap_nil, keyText?, credentials,
    connector, Option.toList_some, List.singleton_append, List.append_nil]

/-- The name of the connector is no part of the key. -/
private theorem key_withConnector (store : ConnectorRequest → ConnectorAnswer) (scope : Scope)
    (outcome : Outcome) :
    (definition.withConnector store scope outcome).common.key = outcome.common.key := by
  unfold withConnector
  split <;> rfl

/-- The name of the connector is no reported text. -/
theorem reported?_withConnector (store : ConnectorRequest → ConnectorAnswer) (scope : Scope)
    (outcome : Outcome) (part : KeyPart) :
    (definition.withConnector store scope outcome).reported? part = outcome.reported? part := by
  unfold withConnector
  split <;> rfl

private theorem partSegments_withConnector (store : ConnectorRequest → ConnectorAnswer)
    (scope : Scope) (outcome : Outcome) (part : KeyPart) :
    definition.partSegments (definition.withConnector store scope outcome) part =
      definition.partSegments outcome part := by
  unfold withConnector
  split <;> rfl

private theorem segments_withConnector (store : ConnectorRequest → ConnectorAnswer)
    (scope : Scope) (outcome : Outcome) :
    definition.segments (definition.withConnector store scope outcome) =
      definition.segments outcome :=
  List.flatMap_congr fun part _ => partSegments_withConnector store scope outcome part

/-- What an outcome reports for the parts of its key are the texts that were read. -/
theorem exists_reads_of_resolve_eq_ok {cancelAfter : Option Nat} {outcome : Outcome}
    (resolves : ((definition.resolve surroundings).run world cancelAfter).result =
      .ok outcome) :
    ∃ texts, definition.Reads surroundings definition.isDynamic world texts ∧
      outcome.common.key =
        Key.generate (surroundings.service.map Service.identifier)
          surroundings.environment.identifier (definition.segments outcome) ∧
      ∀ part ∈ definition.kind.keyParts,
        definition.partSegments outcome part = (definition.keyText? texts part).toList := by
  obtain ⟨texts, extra, read, carries, rfl⟩ := exists_of_resolve_eq_ok resolves
  refine ⟨texts, read, ?_, fun part listed => ?_⟩
  · rw [key_withConnector, segments_withConnector]
    exact key_eq_generate_segments read carries
  · rw [partSegments_withConnector]
    exact (toList_keyText? read carries part listed).symm

/-- The key of an outcome is made of the service, the environment and the listed parts as
the outcome reports them.  In one surroundings, pools with the same credentials and the same
connector have the same key, whether their hosts are provisioned or not. -/
theorem key_resolve (definition : Definition) (surroundings : Surroundings) (world : World)
    (cancelAfter : Option Nat) (outcome : Outcome)
    (resolves : ((definition.resolve surroundings).run world cancelAfter).result =
      .ok outcome) :
    outcome.common.key =
        Key.generate (surroundings.service.map Service.identifier)
          surroundings.environment.identifier (definition.segments outcome) ∧
      ∀ (other : Definition) (otherWorld : World) (otherCancelAfter : Option Nat)
        (otherOutcome : Outcome), definition.kind = .pdc → other.kind = .pdc →
        (∀ name ∈ [Attribute.credentialsRef, .connectorRef],
          other.writtenText? name = definition.writtenText? name) →
        ((other.resolve surroundings).run otherWorld otherCancelAfter).result =
          .ok otherOutcome →
        otherOutcome.common.key = outcome.common.key := by
  obtain ⟨texts, extra, read, carries, rfl⟩ := exists_of_resolve_eq_ok resolves
  rw [key_withConnector, segments_withConnector]
  refine ⟨key_eq_generate_segments read carries, ?_⟩
  intro other otherWorld otherCancelAfter otherOutcome pool otherPool same otherResolves
  obtain ⟨otherTexts, otherExtra, otherRead, -, rfl⟩ := exists_of_resolve_eq_ok otherResolves
  rw [key_withConnector]
  calc
    other.key surroundings otherTexts = _ := key_of_pool otherPool otherRead
    _ = _ := by rw [same .credentialsRef (by simp), same .connectorRef (by simp)]
    _ = definition.key surroundings texts := (key_of_pool pool read).symm

/-- A pool whose hosts are written or provisioned. -/
def samplePool (provisioned : Bool) : Definition where
  details := ⟨"pool", "Pool", .empty, provisioned, none⟩
  text
    | .credentialsRef => some (.literal "credentials")
    | .connectorRef => some (.literal "connector")
    | .hostArrayPath => some (.literal "hosts")
    | _ => none
  target := .pdc (some (.literal (.listed ["host"]))) none
    (some (.literal (OrderedMap.ofList [(hostnameAttribute, "address")])))

/-- Both pools resolve, and they have the same key. -/
theorem key_resolve_samplePool :
    let surroundings : Surroundings :=
      ⟨.unnamed, ⟨"environment", none, .production⟩, none, .empty⟩
    let world : World := ⟨fun _ => .ok (some (.array [])), fun _ => .ok none⟩
    ∃ written provisioned,
      (((samplePool false).resolve surroundings).run world none).result = .ok written ∧
      (((samplePool true).resolve surroundings).run world none).result = .ok provisioned ∧
      written.common.key =
        Key.generate none "environment" ((samplePool false).segments written) ∧
      provisioned.common.key = written.common.key := by
  intro surroundings world
  refine ⟨_, _, rfl, rfl, ?_⟩
  obtain ⟨digested, shared⟩ := key_resolve (samplePool false) surroundings world none _ rfl
  exact ⟨digested, shared (samplePool true) world none _ rfl rfl (fun _ _ => rfl) rfl⟩

end Definition

end DeployTarget
