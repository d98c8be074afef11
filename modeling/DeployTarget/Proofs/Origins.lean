import DeployTarget.Proofs.KeySegments
import DeployTarget.Proofs.Provisioning

/-!
# Where texts come from

A text that a resolution reads from a definition is a value, or what an evaluator supplied
for an expression, or the expression itself where it is read as it is written.  The last
must not happen to a part of the key.  It happens to the connector of a pool, which is the
only part that is neither scanned nor consulted; every other part of every kind has a proper
origin.
-/

namespace DeployTarget

namespace Kind

/-- Apart from the connector of a pool, every part of a key is scanned for expressions. -/
theorem scanned_of_keyAttributes (kind : Kind) : ∀ name ∈ kind.keyAttributes,
    ¬(kind = .pdc ∧ name = .connectorRef) →
      name ∈ kind.scanned ∨ name ∈ kind.scannedWhenStatic := by
  cases kind <;> decide

/-- Apart from the connector of a pool, every part of a key is read with the empty text in
the place of what is absent. -/
theorem reading_of_keyAttributes (kind : Kind) : ∀ name ∈ kind.keyAttributes,
    ¬(kind = .pdc ∧ name = .connectorRef) → ∃ reading ∈ kind.readings,
      reading.name = name ∧ reading.manner ∈ [Manner.plain, .provisioned] := by
  cases kind <;> decide

end Kind

namespace Field

/-- The text that an optional field yields: nothing yields the empty text, and an expression
yields what an evaluator that is consulted supplies for it. -/
inductive Yields (lookup : String → Except Error (Option Json)) (consulted : Bool) :
    Option (Field String) → String → Prop
  | absent : Yields lookup consulted none ""
  | literal (text : String) : Yields lookup consulted (some (.literal text)) text
  | resolved (expression text : String) :
      Yields lookup consulted (some (.resolved expression text)) text
  | supplied {expression text : String} (asked : consulted = true)
      (answered : supplied? String lookup expression = some text) :
      Yields lookup consulted (some (.expression expression)) text

/-- The field that a resolution reads: settled where the evaluator is consulted. -/
def shown (lookup : String → Except Error (Option Json)) (consulted : Bool)
    (field : Option (Field String)) : Option (Field String) :=
  if consulted then field.map (settled lookup) else field

variable {lookup : String → Except Error (Option Json)} {consulted : Bool}
  {field : Option (Field String)}

theorem bind_unresolved?_eq_some_iff {expression : String} :
    field.bind unresolved? = some expression ↔ field = some (.expression expression) := by
  rcases field with - | (_ | _ | _ | _) <;> simp [unresolved?]

/-- Only an expression is shown as another field. -/
theorem shown_eq_self (valued : field.bind unresolved? = none) :
    shown lookup consulted field = field := by
  rcases exists_expression_or_settled_eq lookup field with ⟨text, rfl⟩ | ⟨-, same⟩
  · cases valued
  · cases consulted with
    | false => rfl
    | true => exact same

theorem shown_of_supplied {expression value : String}
    (answered : supplied? String lookup expression = some value) :
    shown lookup true (some (.expression expression)) = some (.literal value) := by
  simp only [shown, if_true, Option.map_some, settled, answered]

theorem shown_of_not_supplied {expression : String}
    (answered : supplied? String lookup expression = none) :
    shown lookup true (some (.expression expression)) = some (.expression expression) := by
  simp only [shown, if_true, Option.map_some, settled, answered]

/-- A field that is read with a value yields it. -/
theorem yields_of_shown (there : shown lookup consulted field ≠ some .pending)
    (valued : (shown lookup consulted field).bind unresolved? = none) :
    Yields lookup consulted field
      (((shown lookup consulted field).bind valueOrExpression?).getD "") := by
  rcases field with - | (text | - | written | ⟨written, text⟩)
  · rw [shown_eq_self rfl]
    exact .absent
  · rw [shown_eq_self rfl]
    exact .literal text
  · exact absurd (shown_eq_self rfl) there
  · cases consulted with
    | false => cases valued
    | true =>
        cases answered : supplied? String lookup written with
        | none =>
            rw [shown_of_not_supplied answered] at valued
            cases valued
        | some value =>
            rw [shown_of_supplied answered]
            exact .supplied rfl answered
  · rw [shown_eq_self rfl]
    exact .resolved written text

/-- A field that is read from the evaluator, and not dropped, is the settled one. -/
theorem shown_of_provisioned {world : World} {dynamic : Bool} {mode : Mode}
    (kept : mode ≠ .drop) {name : String} {text : Option String}
    (read : ((provisioned dynamic field name mode).run world none).result = .ok text) :
    shown world.lookup dynamic field ≠ some .pending ∧
      (shown world.lookup dynamic field).bind valueOrExpression? = text := by
  cases dynamic with
  | false => exact written_eq_ok_iff.mp (((endsAs_plain field name).result world).symm.trans read)
  | true =>
      have matched : Program.Matched world world _ _ := matched_provisioned kept field name
      exact written_eq_ok_iff.mp
        (((endsAs_plain _ name).result world).symm.trans (matched text read))

end Field

/-- What becomes of the text of a field when it is read. -/
def Manner.view : Manner → Option String → Option String
  | .plain, text => some (text.getD "")
  | .plainOrAbsent, text => text
  | .plainOrBlank, text => text.filter (· ≠ "")
  | .provisioned, text => some (text.getD "")
  | .release, text => some (text.getD "")

namespace Definition

/-- Whether resolving a definition consults the evaluator for an attribute. -/
def consults (definition : Definition) (service : Option Service) (name : Attribute) : Bool :=
  definition.isDynamic && decide (name ∈ definition.consulted service)

/-- The field of an attribute as a resolution reads it. -/
def shown (definition : Definition) (service : Option Service)
    (lookup : String → Except Error (Option Json)) (name : Attribute) :
    Option (Field String) :=
  Field.shown lookup (definition.consults service name) (definition.text name)

variable {definition : Definition} {surroundings : Surroundings} {world : World}
  {texts : Texts}

theorem consults_eq_false {service : Option Service} {name : Attribute}
    (other : name ∉ definition.kind.consulted) : definition.consults service name = false := by
  have unlisted : name ∉ definition.consulted service := fun listed =>
    other (List.mem_filter.mp listed).1
  rw [consults, decide_eq_false unlisted, Bool.and_false]

theorem consults_eq_isDynamic {service : Option Service} {name : Attribute}
    (listed : name ∈ definition.consulted service) :
    definition.consults service name = definition.isDynamic := by
  rw [consults, decide_eq_true listed, Bool.and_true]

theorem shown_of_not_mem {service : Option Service}
    {lookup : String → Except Error (Option Json)} {name : Attribute}
    (other : name ∉ definition.kind.consulted) :
    definition.shown service lookup name = definition.text name := by
  rw [shown, consults_eq_false other]
  rfl

/-! ## Texts that have been read -/

/-- The text of an attribute is a view of the field as the resolution reads it, unless the
service pins the release name. -/
theorem Reads.lookup_eq
    (read : definition.Reads surroundings definition.isDynamic world texts) {reading : Reading}
    (listed : reading ∈ definition.kind.readings)
    (unpinned : reading.manner = .release →
      surroundings.service.bind Service.release? = none) :
    definition.shown surroundings.service world.lookup reading.name ≠ some .pending ∧
      texts.lookup reading.name = reading.manner.view
        ((definition.shown surroundings.service world.lookup reading.name).bind
          Field.valueOrExpression?) := by
  have readOne := read reading listed
  obtain ⟨ofProvisioned, ofRelease, ofWritten⟩ :=
    definition.kind.consulted_of_reading reading listed
  obtain ⟨name, manner⟩ := reading
  have plain (other : name ∉ definition.kind.consulted) {text : Option String}
      (written : ((Field.plain (definition.text name) name.name).run world none).result =
        .ok text) :
      definition.shown surroundings.service world.lookup name ≠ some .pending ∧
        (definition.shown surroundings.service world.lookup name).bind
          Field.valueOrExpression? = text := by
    rw [shown_of_not_mem other]
    rwa [(Field.endsAs_plain _ _).result world, Field.written_eq_ok_iff] at written
  have provisioned {mode : Mode} (kept : mode ≠ .drop) {text : Option String}
      (consulted : name ∈ definition.consulted surroundings.service)
      (asked : ((Field.provisioned definition.isDynamic (definition.text name) name.name
        mode).run world none).result = .ok text) :
      definition.shown surroundings.service world.lookup name ≠ some .pending ∧
        (definition.shown surroundings.service world.lookup name).bind
          Field.valueOrExpression? = text := by
    rw [shown, consults_eq_isDynamic consulted]
    exact Field.shown_of_provisioned kept asked
  cases manner with
  | plain =>
      obtain ⟨text, written, same⟩ := Program.result_run_bind_eq_ok.mp readOne
      obtain ⟨there, view⟩ := plain (ofWritten (by simp)) written
      exact ⟨there, by rw [view]; exact (Except.ok.inj same).symm⟩
  | plainOrAbsent =>
      obtain ⟨there, view⟩ := plain (ofWritten (by simp)) readOne
      exact ⟨there, view.symm⟩
  | plainOrBlank =>
      obtain ⟨text, written, same⟩ := Program.result_run_bind_eq_ok.mp readOne
      obtain ⟨there, view⟩ := plain (ofWritten (by simp)) written
      exact ⟨there, by rw [view]; exact (Except.ok.inj same).symm⟩
  | provisioned =>
      obtain ⟨consulted, ordinary⟩ := ofProvisioned rfl
      obtain ⟨text, readText, same⟩ := Program.result_run_bind_eq_ok.mp readOne
      obtain ⟨inner, readField, rest⟩ := Program.result_run_bind_eq_ok.mp readText
      obtain ⟨there, view⟩ :=
        provisioned (by decide) (mem_consulted consulted ordinary) readField
      refine ⟨there, ?_⟩
      cases rest
      rw [view]
      exact (Except.ok.inj same).symm
  | release =>
      obtain ⟨consulted, rfl⟩ := ofRelease rfl
      have free := unpinned rfl
      have asked : .releaseName ∈ definition.consulted surroundings.service := by
        simp [Definition.consulted, consulted, free]
      obtain ⟨text, readText, same⟩ := Program.result_run_bind_eq_ok.mp readOne
      rw [Field.releaseName, free] at readText
      obtain ⟨inner, readField, rest⟩ := Program.result_run_bind_eq_ok.mp readText
      obtain ⟨there, view⟩ := provisioned (by decide) asked readField
      refine ⟨there, ?_⟩
      cases rest
      rw [view]
      exact (Except.ok.inj same).symm

/-! ## The parts of the key -/

/-- What is scanned has a value by the time it is read. -/
private theorem unresolved?_shown (passes : definition.Passes definition.isDynamic)
    (read : definition.Reads surroundings definition.isDynamic world texts) {name : Attribute}
    (scanned : name ∈ definition.kind.scanned ∨ name ∈ definition.kind.scannedWhenStatic) :
    (definition.shown surroundings.service world.lookup name).bind Field.unresolved? =
      none := by
  rcases scanned with always | whenStatic
  · rw [shown_of_not_mem (definition.kind.not_mem_consulted_of_scanned name always)]
    exact passes.scanned name always
  · obtain ⟨consulted, ordinary⟩ :=
      definition.kind.consulted_of_scannedWhenStatic name whenStatic
    have asked : name ∈ definition.consulted surroundings.service :=
      mem_consulted consulted ordinary
    rw [shown, consults_eq_isDynamic asked]
    cases dynamic : definition.isDynamic with
    | false => exact passes.scannedWhenStatic dynamic name whenStatic
    | true =>
        have flagged := ((Bool.and_eq_true _ _).mp dynamic).2
        rw [Field.shown, if_pos rfl, ← text_settled_of_mem asked]
        exact unresolved?_settled flagged read consulted ordinary

/-- A segment that a part adds to the key does not come from an expression without a
value. -/
def Originates (definition : Definition) (service : Option Service)
    (lookup : String → Except Error (Option Json)) : KeyPart → String → Prop
  | .text name, text =>
      Field.Yields lookup (definition.consults service name) (definition.text name) text
  | .templateRef, text => Field.isExpressionText text = false
  | .versionLabel, text => Field.isExpressionText text = false
  | .infraIdentifier, text => text = definition.details.identifier

private theorem originates_of_ordinary (passes : definition.Passes definition.isDynamic)
    (read : definition.Reads surroundings definition.isDynamic world texts) {name : Attribute}
    (listed : name ∈ definition.kind.keyAttributes)
    (ordinary : ¬(definition.kind = .pdc ∧ name = .connectorRef)) {text : String}
    (found : texts.lookup name = some text) :
    definition.Originates surroundings.service world.lookup (.text name) text := by
  obtain ⟨reading, member, rfl, manner⟩ :=
    definition.kind.reading_of_keyAttributes name listed ordinary
  have unpinned : reading.manner = .release →
      surroundings.service.bind Service.release? = none := by
    intro release
    rw [release] at manner
    simp at manner
  obtain ⟨there, view⟩ := read.lookup_eq member unpinned
  have valued := unresolved?_shown passes read
    (definition.kind.scanned_of_keyAttributes _ listed ordinary)
  have same : text = ((definition.shown surroundings.service world.lookup reading.name).bind
      Field.valueOrExpression?).getD "" := by
    rw [found] at view
    rcases List.mem_cons.mp manner with plain | provisioned
    · rw [plain] at view
      exact Option.some.inj view
    · rw [List.mem_singleton.mp provisioned] at view
      exact Option.some.inj view
  rw [same]
  exact Field.yields_of_shown there valued

/-- A pool keeps the text of its connector as it is written, and no evaluator is asked for
it. -/
private theorem originates_of_pool (pool : definition.kind = .pdc)
    (read : definition.Reads surroundings definition.isDynamic world texts) :
    (∀ text, texts.lookup .connectorRef = some text →
        definition.Originates surroundings.service world.lookup (.text .connectorRef) text) ↔
      ∀ expression ≠ "", definition.unresolved? .connectorRef ≠ some expression := by
  have unasked : definition.consults surroundings.service .connectorRef = false :=
    consults_eq_false definition.kind.connectorRef_not_mem_consulted
  rw [lookup_connectorRef pool read, writtenText?, unresolved?]
  simp only [Originates, unasked, Option.filter_eq_some_iff, decide_eq_true_eq]
  constructor
  · intro originate expression filled written
    rw [Field.bind_unresolved?_eq_some_iff] at written
    have yielded := originate expression ⟨by rw [written]; rfl, filled⟩
    rw [written] at yielded
    cases yielded with
    | supplied asked _ => cases asked
  · rintro unwritten text ⟨present, filled⟩
    obtain ⟨field, written, valued⟩ := Option.bind_eq_some_iff.mp present
    rw [written]
    cases field with
    | literal value =>
        cases valued
        exact .literal _
    | pending => cases valued
    | expression expression =>
        cases valued
        exact absurd (Field.bind_unresolved?_eq_some_iff.mpr written) (unwritten _ filled)
    | resolved expression value =>
        cases valued
        exact .resolved expression _

/-- The template of a custom target is named, and not by an expression. -/
private theorem Passes.template_not_expression {dynamic : Bool}
    (passes : definition.Passes dynamic) (custom : definition.kind = .customDeployment) :
    ∃ reference, definition.template? = some reference ∧
      Field.isExpressionText reference.template = false ∧
      Field.isExpressionText reference.version = false := by
  have named := passes.template
  have scanned := passes.texts
  unfold checkTemplate at named
  unfold scannedTexts at scanned
  unfold template?
  cases target : definition.target <;> simp only [kind, target, Target.kind] at custom <;>
    try cases custom
  next reference settings =>
    cases reference with
    | none => simp [target] at named
    | some reference =>
        simpa [target, Validation.expressionText?] using scanned

/-- A pool whose connector is an expression adds the text of the expression to its key. -/
private theorem partSegments_of_pool {outcome : Outcome} (pool : definition.kind = .pdc)
    (read : definition.Reads surroundings definition.isDynamic world texts)
    (segments : definition.partSegments outcome (.text .connectorRef) =
      (definition.keyText? texts (.text .connectorRef)).toList)
    {expression : String} (filled : expression ≠ "")
    (written : definition.unresolved? .connectorRef = some expression) :
    definition.partSegments outcome (.text .connectorRef) = [expression] := by
  rw [unresolved?, Field.bind_unresolved?_eq_some_iff] at written
  have found : texts.lookup .connectorRef = some expression := by
    rw [lookup_connectorRef pool read, writtenText?, written]
    exact Option.filter_eq_some_iff.mpr ⟨rfl, decide_eq_true filled⟩
  rw [segments, keyText?, found, Option.toList_some]

/-- The key of an outcome is made of texts that do not come from expressions without values,
unless it is the key of a pool whose connector is such an expression: there the text of the
expression is a segment of the key. -/
theorem key_originates_iff (definition : Definition) (surroundings : Surroundings)
    (world : World) (cancelAfter : Option Nat) (outcome : Outcome)
    (resolves : ((definition.resolve surroundings).run world cancelAfter).result =
      .ok outcome) :
    outcome.common.key =
        Key.generate (surroundings.service.map Service.identifier)
          surroundings.environment.identifier (definition.segments outcome) ∧
      ((∀ part ∈ definition.kind.keyParts, ∀ text ∈ definition.partSegments outcome part,
          definition.Originates surroundings.service world.lookup part text) ↔
        ¬(definition.kind = .pdc ∧
          ∃ expression ≠ "", definition.unresolved? .connectorRef = some expression)) ∧
      (definition.kind = .pdc → ∀ expression ≠ "",
        definition.unresolved? .connectorRef = some expression →
          definition.partSegments outcome (.text .connectorRef) = [expression]) := by
  obtain ⟨passes, -⟩ := resolve_eq_ok_iff.mp (Program.result_run_none_of_ok resolves)
  obtain ⟨texts, read, key, segments⟩ := exists_reads_of_resolve_eq_ok resolves
  have hashed (pool : definition.kind = .pdc) :
      KeyPart.text .connectorRef ∈ definition.kind.keyParts := by
    rw [pool]
    decide
  refine ⟨key, ⟨?_, ?_⟩, ?_⟩
  · rintro originate ⟨pool, expression, filled, written⟩
    have listed := hashed pool
    refine (originates_of_pool pool read).mp (fun text found => ?_) expression filled written
    refine originate _ listed text ?_
    rw [segments _ listed, keyText?, found]
    exact List.mem_singleton_self text
  · intro unwritten part listed text member
    rw [segments part listed, Option.mem_toList] at member
    cases part with
    | text name =>
        by_cases pool : definition.kind = .pdc ∧ name = .connectorRef
        · obtain ⟨pool, rfl⟩ := pool
          refine (originates_of_pool pool read).mpr (fun expression filled written => ?_) text
            member
          exact unwritten ⟨pool, expression, filled, written⟩
        · exact originates_of_ordinary passes read (Kind.mem_keyAttributes listed) pool member
    | templateRef =>
        obtain ⟨reference, same, plain, -⟩ := passes.template_not_expression
          (Kind.eq_customDeployment_of_mem_keyParts (.inl listed))
        simp only [keyText?, same, Option.map_some, Option.getD_some] at member
        cases member
        exact plain
    | versionLabel =>
        obtain ⟨reference, same, -, plain⟩ := passes.template_not_expression
          (Kind.eq_customDeployment_of_mem_keyParts (.inr listed))
        simp only [keyText?, same, Option.map_some, Option.getD_some] at member
        cases member
        exact plain
    | infraIdentifier =>
        cases member
        rfl
  · intro pool expression filled written
    exact partSegments_of_pool pool read (segments _ (hashed pool)) filled written

/-- A cluster whose namespace is left to an expression. -/
def expressedCluster : Definition where
  details := ⟨"cluster", "Cluster", .empty, true, none⟩
  text
    | .connectorRef => some (.literal "connector")
    | .kubeNamespace => some (.expression "<+namespace>")
    | .releaseName => some (.literal "release")
    | _ => none
  target := .kubernetesDirect

/-- The key of the cluster is made of what the evaluator supplies for the namespace. -/
theorem key_originates_expressedCluster :
    let surroundings : Surroundings :=
      ⟨.unnamed, ⟨"environment", none, .production⟩, none, .empty⟩
    let world : World := ⟨fun _ => .ok (some (.string "web")), fun _ => .ok none⟩
    ∃ outcome,
      ((expressedCluster.resolve surroundings).run world none).result = .ok outcome ∧
      "web" ∈ expressedCluster.partSegments outcome (.text .kubeNamespace) ∧
      expressedCluster.Originates none world.lookup (.text .kubeNamespace) "web" := by
  intro surroundings world
  have listed : KeyPart.text .kubeNamespace ∈ expressedCluster.kind.keyParts := by decide
  refine ⟨_, rfl, by decide, ?_⟩
  obtain ⟨-, originate, -⟩ := key_originates_iff expressedCluster surroundings world none _ rfl
  exact originate.mpr (fun unusual => by cases unusual.1) _ listed "web" (by decide)

/-- A pool whose connector is left to an expression; its hosts are written or provisioned. -/
def referringPool (provisioned : Bool) : Definition where
  details := ⟨"pool", "Pool", .empty, provisioned, none⟩
  text
    | .credentialsRef => some (.literal "credentials")
    | .connectorRef => some (.expression "<+pipeline.variables.connector>")
    | .hostArrayPath => some (.literal "hosts")
    | _ => none
  target := .pdc (some (.literal (.listed ["host"]))) none
    (some (.literal (OrderedMap.ofList [(hostnameAttribute, "address")])))

/-- The pool resolves, and its key is made of the text of the expression. -/
theorem key_not_originates_referringPool :
    let surroundings : Surroundings :=
      ⟨.unnamed, ⟨"environment", none, .production⟩, none, .empty⟩
    let world : World := ⟨fun _ => .ok (some (.array [])), fun _ => .ok none⟩
    ∃ written provisioned,
      (((referringPool false).resolve surroundings).run world none).result = .ok written ∧
      (((referringPool true).resolve surroundings).run world none).result =
        .ok provisioned ∧
      written.common.key = Key.generate none "environment"
        ["credentials", "<+pipeline.variables.connector>"] ∧
      provisioned.common.key = written.common.key ∧
      ¬(referringPool false).Originates none world.lookup (.text .connectorRef)
        "<+pipeline.variables.connector>" ∧
      ¬(referringPool true).Originates none world.lookup (.text .connectorRef)
        "<+pipeline.variables.connector>" := by
  intro surroundings world
  refine ⟨_, _, rfl, rfl, rfl, rfl, ?_, ?_⟩
  · rintro (_ | _ | _ | ⟨⟨⟩⟩)
  · rintro (_ | _ | _ | ⟨⟨⟩⟩)

end Definition

end DeployTarget
