import DeployTarget.Proofs.FlowTree
import DeployTarget.Proofs.Rereading

/-!
# Definitions that are read from folded text

No two texts are read as the same text.  So a part of a definition that is read again from folded
text was not changed by the folding, and neither was the definition as a whole.
-/

namespace DeployTarget

open Source Source.Typed Yaml

/-! ## Parts -/

section Parts

variable {α : Type}

/-- Whether a part that is read again from its folded text was not changed by the folding. -/
def Recovers (read : Value → Option α) (write : α → Json) (part : α) : Prop :=
  read (Value.ofJson ((write part).mapTexts refold)) = some part →
    (write part).mapTexts refold = write part

theorem recovers_text (text : String) : Recovers Value.text? .string text := by
  intro reads
  have same : refold text = text := Option.some.inj reads
  rw [Json.mapTexts, same]

theorem Json.mapTexts_ne_null {written : Json} (present : written ≠ .null) :
    written.mapTexts refold ≠ .null := by
  cases written with
  | null => exact absurd rfl present
  | bool | number | string | array | object => exact Json.noConfusion

/-- An optional part is recovered if it is never written as null. -/
theorem recovers_option {read : Value → Option α} {write : α → Json} {part : Option α}
    (present : ∀ value, write value ≠ .null)
    (recovers : ∀ value ∈ part, Recovers read write value) :
    Recovers (option? read) (fun part => (part.map write).getD .null) part := by
  cases part with
  | none => exact fun _ => rfl
  | some value =>
      intro reads
      change option? read (Value.ofJson ((write value).mapTexts refold)) = _ at reads
      rw [option?_of_ne_null (Json.mapTexts_ne_null (present value))] at reads
      obtain ⟨other, readOther, same⟩ := Option.map_eq_some_iff.mp reads
      cases same
      exact recovers value rfl readOther

/-- A list is recovered if its items are. -/
theorem recovers_list {read : Value → Option α} {write : α → Json} {values : List α}
    (recovers : ∀ value ∈ values, Recovers read write value) :
    Recovers (list? read) (fun values => .array (values.map write)) values := by
  intro reads
  have each : ∀ value ∈ values,
      read (Value.ofJson ((write value).mapTexts refold)) = some value := by
    change (Value.itemsOfJson (Json.mapTextsOfItems refold (values.map write))).mapM read =
      some values at reads
    rwa [Value.itemsOfJson_eq_map, Json.mapTextsOfItems_eq_map, List.map_map, List.map_map,
      mapM_eq_some_iff, List.forall₂_map_left_iff, List.forall₂_same] at reads
  rw [Json.mapTexts, Json.mapTextsOfItems_eq_map, List.map_map]
  exact congrArg Json.array (List.map_congr_left fun value member =>
    recovers value member (each value member))

theorem recovers_strings (texts : List String) : Recovers (list? text?) Json.strings texts :=
  recovers_list fun text _ => recovers_text text

variable [FieldValue α] [FieldValue.Lawful α]

/-- A literal is the data that it is read from, and so is an expression. -/
theorem Field.recovers {field : Field α} (legible : field.IsLegible) :
    Recovers Field.read? Field.toJson field := by
  intro reads
  have read : ofJson (field.toJson.mapTexts refold).canonical = .ok field := by
    rw [Field.read?_eq] at reads
    cases found : (ofJson (field.toJson.mapTexts refold).canonical : Except _ (Field α)) with
    | error mismatch =>
        rw [found] at reads
        cases reads
    | ok other =>
        rw [found] at reads
        cases reads
        rfl
  cases ofJson_eq_ok_iff.mp read with
  | pending =>
      have kept : Lexeme.keepsLines inputMarker.toList = true := by decide
      rw [toJson, Json.mapTexts, (refold_eq_self_iff inputMarker).mpr kept]
  | expression written =>
      rw [toJson, Json.mapTexts, Json.canonical] at written
      rw [toJson, Json.mapTexts, written]
  | @literal value _ foldedFits =>
      cases ofJson_eq_ok_iff.mp legible with
      | literal _ fits =>
          have written : FieldValue.toJson value = (literal value).toJson.canonical :=
            FieldValue.Lawful.toJson_eq fits
          have folded : FieldValue.toJson value =
              ((literal value).toJson.mapTexts refold).canonical :=
            FieldValue.Lawful.toJson_eq foldedFits
          calc
            (literal value).toJson.mapTexts refold =
                (literal value).toJson.canonical.mapTexts refold := by rw [← written, toJson]
            _ = (literal value).toJson := by rw [← Json.canonical_mapTexts, ← folded, toJson]

theorem Field.recovers_option {field : Option (Field α)}
    (legible : ∀ part ∈ field, part.IsLegible) :
    Recovers (option? Field.read?) Field.optionToJson field := by
  rw [Recovers, Field.optionToJson_eq]
  exact DeployTarget.recovers_option Field.toJson_ne_null fun part member =>
    Field.recovers (legible part member)

end Parts

/-! ## Composite parts -/

theorem Json.mapTexts_ofChoice {name : String} (kept : refold name = name)
    (body : List (String × Json)) :
    (ofChoice name body).mapTexts refold = ofChoice name (mapTextsOfEntries refold body) := by
  rw [ofChoice, mapTexts, mapTextsOfEntries, mapTextsOfEntries, mapTextsOfEntries, mapTexts,
    mapTexts, kept, ofChoice]

theorem HostFilter.Way.refold_name (way : Way) : refold way.name = way.name := by
  rw [refold_eq_self_iff]
  cases way <;> decide

theorem Configuration.Place.refold_name (place : Place) : refold place.name = place.name := by
  rw [refold_eq_self_iff]
  cases place <;> decide

theorem Kind.refold_tag (kind : Kind) : refold kind.tag = kind.tag := by
  rw [refold_eq_self_iff]
  cases kind <;> decide

/-- A choice with a single part is recovered with the part. -/
theorem recovers_choice {α β : Type} {read : Value → Option α} {write : α → Json} {make : α → β}
    (distinct : Function.Injective make) {name key : String} (kept : refold name = name) {part : α}
    (recovers : Recovers read write part)
    (reads : make <$> read (Value.ofJson ((write part).mapTexts refold)) = some (make part)) :
    (Json.ofChoice name [(key, write part)]).mapTexts refold =
      .ofChoice name [(key, write part)] := by
  obtain ⟨other, readOther, same⟩ := Option.map_eq_some_iff.mp reads
  rw [distinct same] at readOther
  rw [Json.mapTexts_ofChoice kept, Json.mapTextsOfEntries, Json.mapTextsOfEntries,
    recovers readOther]

theorem HostFilter.recovers {filter : HostFilter} (legible : filter.IsLegible) :
    Recovers HostFilter.read? HostFilter.toJson filter := by
  intro reads
  cases filter with
  | all =>
      rw [toJson, Json.mapTexts, Json.mapTextsOfEntries, Json.mapTextsOfEntries, Json.mapTexts,
        Way.refold_name]
  | names value =>
      rw [HostFilter.read?, toJson, Json.mapTexts_ofChoice (Way.refold_name _),
        Choice.read?_ofChoice] at reads
      exact recovers_choice (fun _ _ => HostFilter.names.inj) (Way.refold_name _)
        (Field.recovers legible) reads
  | attributes value =>
      rw [HostFilter.read?, toJson, Json.mapTexts_ofChoice (Way.refold_name _),
        Choice.read?_ofChoice] at reads
      exact recovers_choice (fun _ _ => HostFilter.attributes.inj) (Way.refold_name _)
        (Field.recovers legible) reads

theorem InstanceFilter.recovers {filter : InstanceFilter} (legible : filter.IsLegible) :
    Recovers InstanceFilter.read? InstanceFilter.toJson filter := by
  intro reads
  change (do
    let networks ← list? text? (Value.ofJson ((Json.strings filter.networks).mapTexts refold))
    let tags ← option? Field.read?
      (Value.ofJson ((Field.optionToJson filter.tags).mapTexts refold))
    return (⟨networks, tags⟩ : InstanceFilter)) = _ at reads
  obtain ⟨networks, readNetworks, reads⟩ := Option.bind_eq_some_iff.mp reads
  obtain ⟨tags, readTags, same⟩ := Option.bind_eq_some_iff.mp reads
  cases same
  rw [toJson, Json.mapTexts, Json.mapTextsOfEntries, Json.mapTextsOfEntries,
    Json.mapTextsOfEntries, recovers_strings _ readNetworks,
    Field.recovers_option legible readTags]

theorem Configuration.recovers {configuration : Configuration}
    (legible : configuration.IsLegible) :
    Recovers Configuration.read? Configuration.toJson configuration := by
  intro reads
  cases configuration with
  | inline content =>
      change Choice.read? Configuration.readBody? (Value.ofJson
        ((Json.ofChoice Place.inline.name [("content", content.toJson)]).mapTexts refold)) = _
        at reads
      rw [Json.mapTexts_ofChoice (Place.refold_name _), Choice.read?_ofChoice] at reads
      rw [toJson, Json.mapTexts, Json.mapTextsOfEntries, Json.mapTextsOfEntries,
        recovers_choice (fun _ _ => Configuration.inline.inj) (Place.refold_name _)
          (Field.recovers legible) reads]
  | files paths =>
      change Choice.read? Configuration.readBody? (Value.ofJson
        ((Json.ofChoice Place.files.name [("files", .strings paths)]).mapTexts refold)) = _
        at reads
      rw [Json.mapTexts_ofChoice (Place.refold_name _), Choice.read?_ofChoice] at reads
      rw [toJson, Json.mapTexts, Json.mapTextsOfEntries, Json.mapTextsOfEntries,
        recovers_choice (fun _ _ => Configuration.files.inj) (Place.refold_name _)
          (recovers_strings paths) reads]

theorem TemplateRef.recovers (reference : TemplateRef) :
    Recovers TemplateRef.read? TemplateRef.toJson reference := by
  intro reads
  have same : (⟨refold reference.template, refold reference.version⟩ : TemplateRef) = reference :=
    Option.some.inj reads
  obtain ⟨template, version⟩ := reference
  obtain ⟨sameTemplate, sameVersion⟩ := TemplateRef.mk.inj same
  rw [toJson, Json.mapTexts, Json.mapTextsOfEntries, Json.mapTextsOfEntries,
    Json.mapTextsOfEntries, Json.mapTexts, Json.mapTexts, sameTemplate, sameVersion]

theorem Variable.recovers {entry : Variable} (legible : entry.IsLegible) :
    Recovers Variable.read? Variable.toJson entry := by
  intro reads
  obtain ⟨name, value⟩ := entry
  change (do
    let value ← option? Field.read? (Value.ofJson ((Field.optionToJson value).mapTexts refold))
    return (⟨refold name, value⟩ : Variable)) = _ at reads
  obtain ⟨other, readValue, same⟩ := Option.bind_eq_some_iff.mp reads
  obtain ⟨sameName, rfl⟩ := Variable.mk.inj (Option.some.inj same)
  rw [toJson, Json.mapTexts, Json.mapTextsOfEntries, Json.mapTextsOfEntries,
    Json.mapTextsOfEntries, Json.mapTexts, sameName, Field.recovers_option legible readValue]

/-- The pairs of a map are read from their folded texts only if none of them was folded. -/
theorem Tags.recovers (tags : Tags) :
    tags? (Held.mk (Value.ofJson ((FieldValue.toJson tags).mapTexts refold))) = some tags →
      (FieldValue.toJson tags).mapTexts refold = FieldValue.toJson tags := by
  intro reads
  have folded : (Json.ofPairs tags.entries).mapTexts refold =
      .ofPairs (tags.entries.map fun pair => (pair.1, refold pair.2)) := by
    rw [Json.ofPairs, Json.mapTexts, Json.mapTextsOfEntries_eq_map, List.map_map, Json.ofPairs,
      List.map_map]
    rfl
  have distinct : ((tags.entries.map fun pair => (pair.1, refold pair.2)).map Prod.fst).Nodup := by
    simpa [Function.comp_def] using tags.distinct
  change tags? (Held.mk (Value.ofJson ((Json.ofPairs tags.entries).mapTexts refold))) = _ at reads
  rw [folded, tags?_ofPairs] at reads
  have same : tags.entries.map (fun pair => (pair.1, refold pair.2)) = tags.entries := by
    rw [← OrderedMap.entries_ofList distinct, Option.some.inj reads]
  change (Json.ofPairs tags.entries).mapTexts refold = .ofPairs tags.entries
  rw [folded, same]

theorem Details.recovers (details : Details)
    (reads : Details.ofEntries? (Held.ofEntries (Json.mapTextsOfEntries refold details.entries)) =
      some details) :
    Json.mapTextsOfEntries refold details.entries = details.entries := by
  obtain ⟨identifier, name, tags, provisioned, step⟩ := details
  change (do
    let tags ← tags? (Held.mk (Value.ofJson ((FieldValue.toJson tags).mapTexts refold)))
    let step ← option? text? (Held.mk (Value.ofJson ((Json.ofText? step).mapTexts refold)))
    return (⟨refold identifier, refold name, tags, provisioned, step⟩ : Details)) = _ at reads
  obtain ⟨otherTags, readTags, reads⟩ := Option.bind_eq_some_iff.mp reads
  obtain ⟨otherStep, readStep, same⟩ := Option.bind_eq_some_iff.mp reads
  obtain ⟨sameIdentifier, sameName, rfl, -, rfl⟩ := Details.mk.inj (Option.some.inj same)
  have keptStep : (Json.ofText? otherStep).mapTexts refold = .ofText? otherStep := by
    cases otherStep with
    | none => rfl
    | some text =>
        have sameText : refold text = text := Option.some.inj (Option.some.inj readStep)
        rw [Json.ofText?, Json.mapTexts, sameText]
  simp only [entries, Json.mapTextsOfEntries, Json.mapTexts, sameIdentifier, sameName,
    Tags.recovers otherTags readTags, keptStep]

/-! ## Definitions -/

theorem Json.mapTextsOfEntries_append (change : String → String)
    (first second : List (String × Json)) :
    mapTextsOfEntries change (first ++ second) =
      mapTextsOfEntries change first ++ mapTextsOfEntries change second := by
  simp only [mapTextsOfEntries_eq_map, List.map_append]

theorem Kind.mapTextsOfEntries_entriesOf (kind : Kind) (written : Slot → Json) :
    Json.mapTextsOfEntries refold (kind.entriesOf written) =
      kind.entriesOf fun slot => (written slot).mapTexts refold := by
  rw [Json.mapTextsOfEntries_eq_map, entriesOf, List.map_map, entriesOf]
  rfl

namespace Definition

variable {definition : Definition}

/-- What is written for a slot, with its texts folded. -/
def foldedSlot (definition : Definition) (slot : Slot) : Json :=
  (definition.slotJson slot).mapTexts refold

theorem recovers_text (legible : definition.IsLegible)
    (reads : readTexts? definition.kind
      (Value.namedEntries (definition.kind.entriesOf definition.foldedSlot)) =
        some definition.text) {name : Attribute} (known : .text name ∈ definition.kind.slots) :
    definition.foldedSlot (.text name) = definition.slotJson (.text name) := by
  have read := (readTexts?_eq_some_iff.mp reads).1 name (mem_attributes_iff.mpr known)
  have written := definition.kind.optional_entriesOf definition.foldedSlot known none
    (option? (Field.read? (α := String)))
  exact Field.recovers_option (legible.texts name) (written.symm.trans read)

/-- The readers of what only a kind has go through its slots one by one. -/
theorem recovers_target (legible : definition.IsLegible)
    (reads : Target.ofEntries? definition.kind
      (Value.namedEntries (definition.kind.entriesOf definition.foldedSlot)) =
        some definition.target) (slot : Slot) :
    (definition.target.slotJson slot).mapTexts refold = definition.target.slotJson slot := by
  obtain ⟨-, -, target⟩ := legible
  obtain ⟨details, text, of⟩ := definition
  have read {slot : Slot} (known : slot ∈ of.kind.slots) {α : Type} (default : α)
      (read : Value → Option α) :=
    (of.kind.optional_entriesOf (foldedSlot ⟨details, text, of⟩) known default read).symm
  cases of with
  | kubernetesAzure flag =>
      obtain ⟨other, readFlag, same⟩ := Option.map_eq_some_iff.mp reads
      cases same
      have known : Slot.useClusterAdminCredentials ∈ Kind.kubernetesAzure.slots := by decide
      have kept := Field.recovers_option target ((read known none _).trans readFlag)
      cases slot with
      | useClusterAdminCredentials => exact kept
      | _ => rfl
  | pdc hosts filter attributes =>
      obtain ⟨legibleHosts, legibleFilter, legibleAttributes⟩ := target
      obtain ⟨_, readHosts, reads⟩ := Option.bind_eq_some_iff.mp reads
      obtain ⟨_, readFilter, reads⟩ := Option.bind_eq_some_iff.mp reads
      obtain ⟨_, readAttributes, same⟩ := Option.bind_eq_some_iff.mp reads
      cases same
      have knownHosts : Slot.hosts ∈ Kind.pdc.slots := by decide
      have knownFilter : Slot.hostFilter ∈ Kind.pdc.slots := by decide
      have knownAttributes : Slot.hostAttributes ∈ Kind.pdc.slots := by decide
      have keptHosts := Field.recovers_option legibleHosts
        ((read knownHosts none _).trans readHosts)
      have keptFilter := recovers_option HostFilter.toJson_ne_null
        (fun part member => HostFilter.recovers (legibleFilter part member))
        ((read knownFilter none _).trans readFilter)
      have keptAttributes := Field.recovers_option legibleAttributes
        ((read knownAttributes none _).trans readAttributes)
      cases slot with
      | hosts => exact keptHosts
      | hostFilter => exact keptFilter
      | hostAttributes => exact keptAttributes
      | _ => rfl
  | sshWinRmAws filter =>
      obtain ⟨_, readFilter, same⟩ := Option.map_eq_some_iff.mp reads
      cases same
      have known : Slot.awsInstanceFilter ∈ Kind.sshWinRmAws.slots := by decide
      have kept := recovers_option (fun _ => Json.noConfusion)
        (fun part member => InstanceFilter.recovers (target part member))
        ((read known none _).trans readFilter)
      cases slot with
      | awsInstanceFilter => exact kept
      | _ => rfl
  | sshWinRmAzure hostTags =>
      obtain ⟨_, readTags, same⟩ := Option.map_eq_some_iff.mp reads
      cases same
      have known : Slot.hostTags ∈ Kind.sshWinRmAzure.slots := by decide
      have kept := Field.recovers_option target ((read known none _).trans readTags)
      cases slot with
      | hostTags => exact kept
      | _ => rfl
  | elastigroup configuration =>
      obtain ⟨_, readPart, same⟩ := Option.map_eq_some_iff.mp reads
      cases same
      have known : Slot.configuration ∈ Kind.elastigroup.slots := by decide
      have kept := recovers_option (fun _ => Json.noConfusion)
        (fun part member => Configuration.recovers (target part member))
        ((read known none _).trans readPart)
      cases slot with
      | configuration => exact kept
      | _ => rfl
  | customDeployment template settings =>
      obtain ⟨_, readTemplate, reads⟩ := Option.bind_eq_some_iff.mp reads
      obtain ⟨_, readSettings, same⟩ := Option.bind_eq_some_iff.mp reads
      cases same
      have knownTemplate : Slot.customDeploymentRef ∈ Kind.customDeployment.slots := by decide
      have knownSettings : Slot.settings ∈ Kind.customDeployment.slots := by decide
      have keptTemplate := recovers_option (fun _ => Json.noConfusion)
        (fun reference _ => TemplateRef.recovers reference)
        ((read knownTemplate none _).trans readTemplate)
      have keptSettings := recovers_list
        (fun entry member => Variable.recovers (target entry member))
        ((read knownSettings [] _).trans readSettings)
      cases slot with
      | customDeploymentRef => exact keptTemplate
      | settings => exact keptSettings
      | _ => rfl
  | kubernetesDirect | kubernetesGcp | kubernetesAws | kubernetesRancher | serverlessAwsLambda
  | azureWebApp | ecs | googleCloudFunctions | asg | tas | awsSam | awsLambda =>
      cases slot <;> rfl

/-- A definition is read from its folded data only if nothing of the data was folded. -/
theorem recovers (legible : definition.IsLegible) (ordinary : definition.kind ≠ .sshWinRmAzure)
    (reads : ofValue (Value.ofJson (definition.toJson.mapTexts refold)) = .ok definition) :
    definition.toJson.mapTexts refold = definition.toJson := by
  have folded : definition.toJson.mapTexts refold = .ofChoice definition.kind.tag
      (Json.mapTextsOfEntries refold definition.details.entries ++
        definition.kind.entriesOf definition.foldedSlot) := by
    rw [toJson_eq, Json.mapTexts_ofChoice definition.kind.refold_tag,
      Json.mapTextsOfEntries_append, slotEntries, Kind.mapTextsOfEntries_entriesOf]
    rfl
  have named : (Json.mapTextsOfEntries refold definition.details.entries).map Prod.fst =
      Details.names :=
    Json.map_fst_mapTextsOfEntries refold _
  have body := read?_of_ofValue reads
  rw [folded, Choice.read?_ofChoice, readBody?_entriesOf ordinary named] at body
  obtain ⟨details, readDetails, body⟩ := Option.bind_eq_some_iff.mp body
  obtain ⟨text, readTexts, body⟩ := Option.bind_eq_some_iff.mp body
  obtain ⟨target, readTarget, same⟩ := Option.bind_eq_some_iff.mp body
  cases same
  have keptSlots : ∀ slot ∈ (Definition.mk details text target).kind.slots,
      foldedSlot ⟨details, text, target⟩ slot = slotJson ⟨details, text, target⟩ slot := by
    intro slot known
    cases slot with
    | text name => exact recovers_text legible readTexts known
    | _ => exact recovers_target legible readTarget _
  rw [folded, Details.recovers details readDetails, toJson_eq]
  refine congrArg (fun entries => Json.ofChoice _ (details.entries ++ entries)) ?_
  exact List.map_congr_left fun slot known => Prod.ext rfl (keptSlots slot known)

end Definition

end DeployTarget
