import DeployTarget.Definition.Writer
import DeployTarget.Proofs.Legible

/-!
# Definitions that are read again

A value of plain data is read as it was written, part by part.  So the value that a legible
definition is written as describes the same definition, unless its kind has a slot under the
name of the tags; no object in the value then holds a key twice.
-/

namespace DeployTarget

open Source Source.Typed Yaml

/-! ## Values of plain data -/

namespace Yaml.Value

mutual

theorem toJson?_ofJson : (value : Json) → (ofJson value).toJson? = some value
  | .null | .bool _ | .number _ | .string _ => rfl
  | .array items => by rw [ofJson, toJson?, itemsToJson?_itemsOfJson items]; rfl
  | .object entries => by rw [ofJson, toJson?, entriesToJson?_entriesOfJson entries]; rfl

theorem itemsToJson?_itemsOfJson :
    (items : List Json) → itemsToJson? (itemsOfJson items) = some items
  | [] => rfl
  | item :: rest => by
      rw [itemsOfJson, itemsToJson?, toJson?_ofJson item, itemsToJson?_itemsOfJson rest]
      rfl

theorem entriesToJson?_entriesOfJson :
    (entries : List (String × Json)) → entriesToJson? (entriesOfJson entries) = some entries
  | [] => rfl
  | (key, value) :: rest => by
      rw [entriesOfJson, entriesToJson?, toJson?_ofJson value, entriesToJson?_entriesOfJson rest]
      rfl

end

mutual

theorem hasTag_ofJson : (value : Json) → (ofJson value).hasTag = false
  | .null | .bool _ | .number _ | .string _ => rfl
  | .array items => by rw [ofJson, hasTag, anyTagged_itemsOfJson items]
  | .object entries => by rw [ofJson, hasTag, anyEntryTagged_entriesOfJson entries]

theorem anyTagged_itemsOfJson : (items : List Json) → anyTagged (itemsOfJson items) = false
  | [] => rfl
  | item :: rest => by
      rw [itemsOfJson, anyTagged, hasTag_ofJson item, anyTagged_itemsOfJson rest]
      rfl

theorem anyEntryTagged_entriesOfJson :
    (entries : List (String × Json)) → anyEntryTagged (entriesOfJson entries) = false
  | [] => rfl
  | (key, value) :: rest => by
      rw [entriesOfJson, anyEntryTagged, hasTag_ofJson value, anyEntryTagged_entriesOfJson rest]
      rfl

end

theorem itemsOfJson_eq_map (items : List Json) : itemsOfJson items = items.map ofJson := by
  induction items with
  | nil => rfl
  | cons item rest ih => rw [itemsOfJson, ih, List.map_cons]

/-- The entries of plain data as they are read. -/
def namedEntries (entries : List (String × Json)) : List (String × Value) :=
  entries.map fun entry => (entry.1, ofJson entry.2)

theorem named?_entriesOfJson (entries : List (String × Json)) :
    named? (entriesOfJson entries) = some (namedEntries entries) := by
  induction entries with
  | nil => rfl
  | cons entry rest ih =>
      obtain ⟨key, value⟩ := entry
      unfold named? at ih ⊢
      rw [entriesOfJson, List.mapM_cons, ih]
      rfl

end Yaml.Value

/-! ## Parts that are read again -/

section Parts

variable {α : Type}

/-- Data other than null is read as data that is present. -/
theorem option?_of_ne_null {read : Value → Option α} {written : Json} (present : written ≠ .null) :
    option? read (Value.ofJson written) = some <$> read (Value.ofJson written) := by
  have notAbsent : isAbsent (Value.ofJson written) = false := by
    cases written with
    | null => exact absurd rfl present
    | bool | number | string | array | object => rfl
  rw [option?, notAbsent]
  rfl

/-- An optional part is read again if it is never written as null. -/
theorem option?_ofJson {read : Value → Option α} (write : α → Json) (part : Option α)
    (present : ∀ value, write value ≠ .null)
    (reads : ∀ value ∈ part, read (Value.ofJson (write value)) = some value) :
    option? read (Value.ofJson ((part.map write).getD .null)) = some part := by
  cases part with
  | none => rfl
  | some value =>
      change option? read (Value.ofJson (write value)) = _
      rw [option?_of_ne_null (present value), reads value rfl]
      rfl

theorem list?_ofJson {read : Value → Option α} {write : α → Json} {values : List α}
    (reads : ∀ value ∈ values, read (Value.ofJson (write value)) = some value) :
    list? read (Value.ofJson (.array (values.map write))) = some values := by
  change (Value.itemsOfJson (values.map write)).mapM read = some values
  rw [Value.itemsOfJson_eq_map, List.map_map, List.mapM_map]
  calc
    values.mapM (read ∘ Value.ofJson ∘ write) = some (values.map id) := mapM_eq_some_map reads
    _ = some values := by rw [List.map_id]

theorem list?_strings (texts : List String) :
    list? text? (Value.ofJson (.strings texts)) = some texts :=
  list?_ofJson fun _ _ => rfl

variable [FieldValue α]

/-- A field is read from the canonical form of plain data. -/
theorem Field.read?_eq (raw : Json) :
    Field.read? (Value.ofJson raw) = (ofJson raw.canonical : Except _ (Field α)).toOption := by
  change (Value.ofJson raw).toJson? >>= _ = _
  rw [Value.toJson?_ofJson]
  rfl

theorem Field.read?_ofJson {field : Field α} (legible : field.IsLegible) :
    Field.read? (Value.ofJson field.toJson) = some field := by
  rw [Field.read?_eq, legible]
  rfl

theorem Field.optionToJson_eq (field : Option (Field α)) :
    optionToJson field = (field.map toJson).getD .null := by
  cases field <;> rfl

theorem Field.option?_read?_ofJson [FieldValue.Lawful α] {field : Option (Field α)}
    (legible : ∀ part ∈ field, part.IsLegible) :
    option? Field.read? (Value.ofJson (Field.optionToJson field)) = some field := by
  rw [Field.optionToJson_eq]
  exact option?_ofJson Field.toJson field Field.toJson_ne_null fun part member =>
    Field.read?_ofJson (legible part member)

end Parts

/-- A choice is read by its body. -/
theorem Choice.read?_ofChoice {α : Type}
    (readBody : {μ : Type} → [Source.Typed μ] → String → Option μ → Option α) (name : String)
    (body : List (String × Json)) :
    Choice.read? readBody (Value.ofJson (.ofChoice name body)) =
      readBody name (some (Value.ofJson (.object body))) :=
  rfl

theorem HostFilter.toJson_ne_null (filter : HostFilter) : filter.toJson ≠ .null := by
  cases filter <;> exact Json.noConfusion

theorem HostFilter.read?_ofJson {filter : HostFilter} (legible : filter.IsLegible) :
    HostFilter.read? (Value.ofJson filter.toJson) = some filter := by
  cases filter with
  | all => rfl
  | names value =>
      rw [HostFilter.read?, HostFilter.toJson, Choice.read?_ofChoice]
      change HostFilter.names <$> Field.read? (Value.ofJson value.toJson) = _
      rw [Field.read?_ofJson legible]
      rfl
  | attributes value =>
      rw [HostFilter.read?, HostFilter.toJson, Choice.read?_ofChoice]
      change HostFilter.attributes <$> Field.read? (Value.ofJson value.toJson) = _
      rw [Field.read?_ofJson legible]
      rfl

theorem InstanceFilter.read?_ofJson {filter : InstanceFilter} (legible : filter.IsLegible) :
    InstanceFilter.read? (Value.ofJson filter.toJson) = some filter := by
  change (do
    let networks ← list? text? (Value.ofJson (.strings filter.networks))
    let tags ← option? Field.read? (Value.ofJson (Field.optionToJson filter.tags))
    return (⟨networks, tags⟩ : InstanceFilter)) = _
  rw [list?_strings, Field.option?_read?_ofJson legible]
  rfl

theorem Configuration.read?_ofJson {configuration : Configuration}
    (legible : configuration.IsLegible) :
    Configuration.read? (Value.ofJson configuration.toJson) = some configuration := by
  cases configuration with
  | inline content =>
      change Choice.read? Configuration.readBody?
        (Value.ofJson (.ofChoice Place.inline.name [("content", content.toJson)])) = _
      rw [Choice.read?_ofChoice]
      change Configuration.inline <$> Field.read? (Value.ofJson content.toJson) = _
      rw [Field.read?_ofJson legible]
      rfl
  | files paths =>
      change Choice.read? Configuration.readBody?
        (Value.ofJson (.ofChoice Place.files.name [("files", .strings paths)])) = _
      rw [Choice.read?_ofChoice]
      change Configuration.files <$> list? text? (Value.ofJson (.strings paths)) = _
      rw [list?_strings]
      rfl

theorem Variable.read?_ofJson {entry : Variable} (legible : entry.IsLegible) :
    Variable.read? (Value.ofJson entry.toJson) = some entry := by
  change (do
    let value ← option? Field.read? (Value.ofJson (Field.optionToJson entry.value))
    return (⟨entry.name, value⟩ : Variable)) = _
  rw [Field.option?_read?_ofJson legible]
  rfl

/-! ## The body of a definition -/

theorem Kind.nodup_slots (kind : Kind) : (kind.slots.map Slot.name).Nodup := by
  cases kind <;> decide

/-- No kind but one has a slot under the name of one of the details. -/
theorem Kind.names_not_mem_slots {kind : Kind} (ordinary : kind ≠ .sshWinRmAzure) :
    ∀ name ∈ Details.names, name ∉ kind.slots.map Slot.name := by
  cases kind
  case sshWinRmAzure => exact absurd rfl ordinary
  all_goals decide

theorem Details.map_fst_entries (details : Details) :
    details.entries.map Prod.fst = Details.names :=
  rfl

/-- Entries for the slots of a kind. -/
def Kind.entriesOf (kind : Kind) (written : Slot → Json) : List (String × Json) :=
  kind.slots.map fun slot => (slot.name, written slot)

theorem Kind.map_fst_entriesOf (kind : Kind) (written : Slot → Json) :
    (kind.entriesOf written).map Prod.fst = kind.slots.map Slot.name := by
  simp [entriesOf, Function.comp_def]

/-- The entry of a slot is read under the name of the slot. -/
theorem Kind.optional_entriesOf (kind : Kind) (written : Slot → Json) {slot : Slot}
    (known : slot ∈ kind.slots) {α : Type} (default : α) (read : Value → Option α) :
    Source.optional default read (Value.namedEntries (kind.entriesOf written)) slot.name =
      read (Value.ofJson (written slot)) := by
  have keys : (Value.namedEntries (kind.entriesOf written)).map Prod.fst =
      kind.slots.map Slot.name := by
    rw [Value.namedEntries, List.map_map]
    exact kind.map_fst_entriesOf written
  have member : (slot.name, Value.ofJson (written slot)) ∈
      Value.namedEntries (kind.entriesOf written) :=
    List.mem_map.mpr ⟨_, List.mem_map_of_mem known, rfl⟩
  rw [Source.optional, lookup_of_mem (keys ▸ kind.nodup_slots) member]

/-- The values of entries, held back until a type is known. -/
def Held.ofEntries (entries : List (String × Json)) : List (String × Held) :=
  (Value.namedEntries entries).map fun entry => (entry.1, ⟨entry.2⟩)

theorem mapM_held?_namedEntries (entries : List (String × Json)) :
    ((Value.namedEntries entries).mapM fun entry => do
      let value ← held? entry.2
      return (entry.1, value)) = some (Held.ofEntries entries) := by
  have held (value : Json) : held? (Value.ofJson value) = some ⟨Value.ofJson value⟩ := by
    change (if (Value.ofJson value).hasTag then none else _) = _
    rw [Value.hasTag_ofJson]
    rfl
  refine mapM_eq_some_map fun entry member => ?_
  obtain ⟨written, -, rfl⟩ := List.mem_map.mp member
  rw [held]
  rfl

/-- Texts as the entries of an object. -/
def textEntries (pairs : List (String × String)) : List (String × Json) :=
  pairs.map fun pair => (pair.1, .string pair.2)

/-- Texts that are held back are read with their names. -/
private theorem mapM_textEntries (pairs : List (String × String)) :
    ((Held.ofEntries (textEntries pairs)).mapM fun entry => do
      let text ← text? entry.2
      return (entry.1, text)) = some pairs := by
  unfold Held.ofEntries Value.namedEntries textEntries
  rw [List.map_map, List.map_map, List.mapM_map]
  calc
    pairs.mapM _ = some (pairs.map id) := mapM_eq_some_map fun _ _ => rfl
    _ = some pairs := by rw [List.map_id]

theorem tags?_ofPairs (pairs : List (String × String)) :
    tags? (Held.mk (Value.ofJson (.ofPairs pairs))) = some (OrderedMap.ofList pairs) := by
  have opened : entries? (Held.mk (Value.ofJson (.ofPairs pairs))) =
      some (Held.ofEntries (textEntries pairs)) := by
    change (do
      let named ← Value.named? (Value.entriesOfJson (textEntries pairs))
      return named.map fun entry : String × Value => (entry.1, Held.mk entry.2)) = _
    rw [Value.named?_entriesOfJson]
    rfl
  rw [tags?, opened, Option.bind_eq_bind, Option.bind_some, mapM_textEntries]
  rfl

theorem tags?_held (tags : Tags) :
    tags? (Held.mk (Value.ofJson (FieldValue.toJson tags))) = some tags :=
  (tags?_ofPairs tags.entries).trans (congrArg some (OrderedMap.ofList_entries tags))

/-- Details are read again from their entries, held back. -/
theorem Details.ofEntries?_held (details : Details) :
    Details.ofEntries? (Held.ofEntries details.entries) = some details := by
  have step : option? text? (Held.mk (Value.ofJson (.ofText? details.provisionerStep))) =
      some details.provisionerStep := by
    cases details.provisionerStep <;> rfl
  change (do
    let tags ← tags? (Held.mk (Value.ofJson (FieldValue.toJson details.tags)))
    let step ← option? text? (Held.mk (Value.ofJson (.ofText? details.provisionerStep)))
    return (⟨details.identifier, details.name, tags, details.provisioned, step⟩ : Details)) = _
  rw [tags?_held, step]
  rfl

namespace Definition

/-- The entries that a definition has for the slots of its kind. -/
def slotEntries (definition : Definition) : List (String × Json) :=
  definition.kind.entriesOf definition.slotJson

theorem optional_slot (definition : Definition) (slot : Slot)
    (known : slot ∈ definition.kind.slots) {α : Type} (default : α) (read : Value → Option α) :
    Source.optional default read (Value.namedEntries definition.slotEntries) slot.name =
      read (Value.ofJson (definition.slotJson slot)) :=
  definition.kind.optional_entriesOf definition.slotJson known default read

theorem readOptional?_slot {α : Type} [FieldValue α] [FieldValue.Lawful α]
    (definition : Definition) (slot : Slot) (known : slot ∈ definition.kind.slots)
    {field : Option (Field α)} (written : definition.slotJson slot = Field.optionToJson field)
    (legible : ∀ part ∈ field, part.IsLegible) :
    Field.readOptional? (Value.namedEntries definition.slotEntries) slot.name = some field := by
  rw [Field.readOptional?, optional_slot definition slot known, written,
    Field.option?_read?_ofJson legible]

/-- An optional part is read again under the name of its slot. -/
theorem optional_part {α : Type} (definition : Definition) (slot : Slot)
    (known : slot ∈ definition.kind.slots) {part : Option α} {write : α → Json}
    {read : Value → Option α} (written : definition.slotJson slot = (part.map write).getD .null)
    (present : ∀ value, write value ≠ .null)
    (reads : ∀ value ∈ part, read (Value.ofJson (write value)) = some value) :
    Source.optional none (option? read) (Value.namedEntries definition.slotEntries) slot.name =
      some part := by
  rw [optional_slot definition slot known, written, option?_ofJson write part present reads]

variable {definition : Definition}

theorem mem_attributes_iff {kind : Kind} {name : Attribute} :
    name ∈ kind.attributes ↔ Slot.text name ∈ kind.slots := by
  unfold Kind.attributes
  rw [List.mem_filterMap]
  constructor
  · rintro ⟨slot, listed, same⟩
    cases slot <;> cases same
    exact listed
  · exact fun listed => ⟨_, listed, rfl⟩

/-- The texts of a legible definition are read again. -/
theorem readTexts?_slotEntries (legible : definition.IsLegible) :
    readTexts? definition.kind (Value.namedEntries definition.slotEntries) =
      some definition.text := by
  refine readTexts?_eq_some_iff.mpr ⟨fun name listed => ?_, legible.unknown⟩
  exact readOptional?_slot definition (.text name) (mem_attributes_iff.mp listed) rfl
    (legible.texts name)

/-- What only a kind has is read again. -/
theorem ofEntries?_slotEntries (legible : definition.IsLegible) :
    Target.ofEntries? definition.kind (Value.namedEntries definition.slotEntries) =
      some definition.target := by
  obtain ⟨-, -, target⟩ := legible
  obtain ⟨details, text, of⟩ := definition
  have field {α : Type} [FieldValue α] [FieldValue.Lawful α] :=
    readOptional?_slot (α := α) ⟨details, text, of⟩
  have part {α : Type} := optional_part (α := α) ⟨details, text, of⟩
  cases of with
  | kubernetesAzure flag =>
      have readFlag := field .useClusterAdminCredentials (by simp [kind, Target.kind, Kind.slots])
        rfl target
      change Target.kubernetesAzure <$> Field.readOptional? _ _ = _
      rw [readFlag]
      rfl
  | pdc hosts filter attributes =>
      obtain ⟨legibleHosts, legibleFilter, legibleAttributes⟩ := target
      have readHosts := field .hosts (by simp [kind, Target.kind, Kind.slots]) rfl legibleHosts
      have readFilter := part .hostFilter (by simp [kind, Target.kind, Kind.slots]) rfl
        HostFilter.toJson_ne_null fun value member =>
          HostFilter.read?_ofJson (legibleFilter value member)
      have readAttributes := field .hostAttributes (by simp [kind, Target.kind, Kind.slots]) rfl
        legibleAttributes
      change (do
        let hosts ← Field.readOptional? _ Slot.hosts.name
        let filter ← Source.optional none (option? HostFilter.read?) _ Slot.hostFilter.name
        let attributes ← Field.readOptional? _ Slot.hostAttributes.name
        return Target.pdc hosts filter attributes) = _
      rw [readHosts, readFilter, readAttributes]
      rfl
  | sshWinRmAws filter =>
      have readFilter := part .awsInstanceFilter (by simp [kind, Target.kind, Kind.slots]) rfl
        (fun _ => Json.noConfusion) fun value member =>
          InstanceFilter.read?_ofJson (target value member)
      change Target.sshWinRmAws <$> Source.optional none (option? InstanceFilter.read?) _ _ = _
      rw [readFilter]
      rfl
  | sshWinRmAzure hostTags =>
      have readTags := field .hostTags (by simp [kind, Target.kind, Kind.slots]) rfl target
      change Target.sshWinRmAzure <$> Field.readOptional? _ _ = _
      rw [readTags]
      rfl
  | elastigroup configuration =>
      have readPart := part .configuration (by simp [kind, Target.kind, Kind.slots]) rfl
        (fun _ => Json.noConfusion) fun value member =>
          Configuration.read?_ofJson (target value member)
      change Target.elastigroup <$> Source.optional none (option? Configuration.read?) _ _ = _
      rw [readPart]
      rfl
  | customDeployment template settings =>
      have reads (reference : TemplateRef) (_ : reference ∈ template) :
          TemplateRef.read? (Value.ofJson reference.toJson) = some reference := rfl
      have readTemplate := part .customDeploymentRef (by simp [kind, Target.kind, Kind.slots]) rfl
        (fun _ => Json.noConfusion) reads
      have readSettings := (optional_slot ⟨details, text, .customDeployment template settings⟩
        .settings (by simp [kind, Target.kind, Kind.slots]) [] (list? Variable.read?)).trans
        (list?_ofJson fun entry member => Variable.read?_ofJson (target entry member))
      change (do
        let template ← Source.optional none (option? TemplateRef.read?) _
          Slot.customDeploymentRef.name
        let settings ← Source.optional [] (list? Variable.read?) _ Slot.settings.name
        return Target.customDeployment template settings) = _
      rw [readTemplate, readSettings]
      rfl
  | kubernetesDirect | kubernetesGcp | kubernetesAws | kubernetesRancher | serverlessAwsLambda
  | azureWebApp | ecs | googleCloudFunctions | asg | tas | awsSam | awsLambda => rfl

/-- A body is read from the entries of its details, held back, and from those of its slots. -/
theorem readBody?_entriesOf {kind : Kind} (ordinary : kind ≠ .sshWinRmAzure)
    {details : List (String × Json)} (named : details.map Prod.fst = Details.names)
    (written : Slot → Json) :
    readBody? kind.tag (some (Value.ofJson (.object (details ++ kind.entriesOf written)))) =
      (do
        let details ← Details.ofEntries? (Held.ofEntries details)
        let text ← readTexts? kind (Value.namedEntries (kind.entriesOf written))
        let target ← Target.ofEntries? kind (Value.namedEntries (kind.entriesOf written))
        return ⟨details, text, target⟩) := by
  have opened : open? (Value.ofJson (.object (details ++ kind.entriesOf written))) =
      some (Value.namedEntries details ++ Value.namedEntries (kind.entriesOf written)) := by
    change Value.named? (Value.entriesOfJson _) = _
    rw [Value.named?_entriesOfJson, Value.namedEntries, List.map_append]
    rfl
  have ofDetails : ∀ entry ∈ Value.namedEntries details,
      entry.1 ∉ kind.slots.map Slot.name := by
    intro entry member
    obtain ⟨written, listed, rfl⟩ := List.mem_map.mp member
    exact Kind.names_not_mem_slots ordinary written.1 (named ▸ List.mem_map_of_mem listed)
  have ofSlots : ∀ entry ∈ Value.namedEntries (kind.entriesOf written),
      entry.1 ∈ kind.slots.map Slot.name := by
    intro entry member
    obtain ⟨written, listed, rfl⟩ := List.mem_map.mp member
    obtain ⟨slot, known, rfl⟩ := List.mem_map.mp listed
    exact List.mem_map_of_mem known
  have own : (Value.namedEntries details ++ Value.namedEntries (kind.entriesOf written)).filter
        (fun entry => entry.1 ∈ kind.slots.map Slot.name) =
      Value.namedEntries (kind.entriesOf written) := by
    rw [List.filter_append, List.filter_eq_nil_iff.mpr (by simpa using ofDetails),
      List.filter_eq_self.mpr (by simpa using ofSlots), List.nil_append]
  have others : (Value.namedEntries details ++ Value.namedEntries (kind.entriesOf written)).filter
        (fun entry => entry.1 ∉ kind.slots.map Slot.name) = Value.namedEntries details := by
    rw [List.filter_append, List.filter_eq_self.mpr (by simpa using ofDetails),
      List.filter_eq_nil_iff.mpr (by simpa using ofSlots), List.append_nil]
  have distinct : single? (Value.namedEntries (kind.entriesOf written)) =
      some (Value.namedEntries (kind.entriesOf written)) :=
    single?_eq_some.mpr ⟨by
      rw [Value.namedEntries, List.map_map]
      exact (kind.map_fst_entriesOf written).symm ▸ kind.nodup_slots, rfl⟩
  have held := mapM_held?_namedEntries details
  simp only [Option.bind_eq_bind, Option.pure_def] at held
  rw [readBody?, Kind.ofTag?_tag]
  simp only [Option.bind_eq_bind, Option.bind_some, opened, own, others, distinct, held,
    Option.pure_def]

/-- A body is read again from the entries of its details and its slots. -/
theorem readBody?_ofJson (legible : definition.IsLegible)
    (ordinary : definition.kind ≠ .sshWinRmAzure) :
    readBody? definition.kind.tag (some (Value.ofJson
      (.object (definition.details.entries ++ definition.slotEntries)))) = some definition := by
  have texts := readTexts?_slotEntries legible
  have target := ofEntries?_slotEntries legible
  rw [slotEntries] at texts target ⊢
  rw [readBody?_entriesOf ordinary definition.details.map_fst_entries, Details.ofEntries?_held,
    texts, target]
  rfl

theorem toJson_eq : definition.toJson = .ofChoice definition.kind.tag
    (definition.details.entries ++ definition.slotEntries) :=
  rfl

/-- A legible definition is what the value that it is written as describes, unless its kind
has a slot under the name of the tags. -/
theorem ofValue_ofJson (legible : definition.IsLegible)
    (ordinary : definition.kind ≠ .sshWinRmAzure) :
    ofValue (Value.ofJson definition.toJson) = .ok definition := by
  have tag : ((Value.ofJson definition.toJson).get? Choice.tagName >>= Value.text?) =
      some definition.kind.tag := rfl
  rw [ofValue, tag]
  simp only [Kind.ofTag?_tag]
  rw [toJson_eq, Choice.read?_ofChoice, readBody?_ofJson legible ordinary]

end Definition

/-! ## Regular data -/

/-- The names of the slots of a kind are distinct from those of the details, except where a
slot has the name of the tags. -/
theorem Kind.nodup_names (kind : Kind) :
    (Details.names ++ kind.slots.map Slot.name).Nodup ↔ kind ≠ .sshWinRmAzure := by
  cases kind <;> decide

theorem Json.isRegular_singleton {bound : Nat} {name : String} {value : Json}
    (regular : value.IsRegular bound) : (Json.object [(name, value)]).IsRegular (bound + 1) :=
  isRegular_object (List.nodup_singleton name) fun entry member => by
    cases List.mem_singleton.mp member
    exact regular

theorem Json.isRegular_pair {bound : Nat} {name other : String} {value second : Json}
    (different : name ≠ other) (regular : value.IsRegular bound)
    (secondRegular : second.IsRegular bound) :
    (Json.object [(name, value), (other, second)]).IsRegular (bound + 1) := by
  refine isRegular_object (by simpa using different) fun entry member => ?_
  rcases List.mem_cons.mp member with rfl | later
  · exact regular
  · cases List.mem_singleton.mp later
    exact secondRegular

theorem Json.isRegular_ofChoice {bound : Nat} {name : String} {body : List (String × Json)}
    (regular : (Json.object body).IsRegular (bound + 1)) :
    (Json.ofChoice name body).IsRegular (bound + 2) :=
  isRegular_pair (by decide) (isRegular_string _ name) regular

theorem Json.isRegular_getD {α : Type} {bound : Nat} {write : α → Json}
    (regular : ∀ part, (write part).IsRegular bound) (part : Option α) :
    ((part.map write).getD .null).IsRegular bound := by
  cases part with
  | none => exact isRegular_null bound
  | some part => exact regular part

open Json

theorem HostFilter.isRegular_toJson (filter : HostFilter) : filter.toJson.IsRegular 4 := by
  cases filter with
  | all => exact isRegular_singleton (isRegular_string _ _)
  | names value | attributes value =>
      exact isRegular_ofChoice (isRegular_singleton (value.isRegular_toJson 1))

theorem InstanceFilter.isRegular_toJson (filter : InstanceFilter) : filter.toJson.IsRegular 4 :=
  isRegular_pair (by decide) (isRegular_strings 2 filter.networks)
    (Field.isRegular_optionToJson 2 filter.tags)

theorem TemplateRef.isRegular_toJson (reference : TemplateRef) : reference.toJson.IsRegular 4 :=
  isRegular_pair (by decide) (isRegular_string _ _) (isRegular_string _ _)

theorem Configuration.isRegular_toJson (configuration : Configuration) :
    configuration.toJson.IsRegular 4 := by
  cases configuration with
  | inline content =>
      exact isRegular_singleton
        (isRegular_ofChoice (isRegular_singleton (content.isRegular_toJson 0)))
  | files paths =>
      exact isRegular_singleton
        (isRegular_ofChoice (isRegular_singleton (isRegular_strings 0 paths)))

theorem Variable.isRegular_toJson (entry : Variable) : entry.toJson.IsRegular 3 :=
  isRegular_pair (by decide) (isRegular_string _ _) (Field.isRegular_optionToJson 1 entry.value)

theorem Details.isRegular_of_mem_entries (details : Details) :
    ∀ entry ∈ details.entries, entry.2.IsRegular 4 := by
  have step : (Json.ofText? details.provisionerStep).IsRegular 4 := by
    cases details.provisionerStep with
    | none => exact isRegular_null _
    | some text => exact isRegular_string _ text
  simpa [Details.entries, step, isRegular_string, isRegular_bool] using
    FieldValue.Lawful.isRegular_toJson 3 details.tags

theorem Target.isRegular_slotJson (target : Target) (slot : Slot) :
    (target.slotJson slot).IsRegular 4 := by
  unfold Target.slotJson
  split
  case h_3 => exact isRegular_getD HostFilter.isRegular_toJson _
  case h_5 => exact isRegular_getD InstanceFilter.isRegular_toJson _
  case h_7 => exact isRegular_getD Configuration.isRegular_toJson _
  case h_8 => exact isRegular_getD TemplateRef.isRegular_toJson _
  case h_9 settings =>
    refine isRegular_array fun item member => ?_
    obtain ⟨entry, -, rfl⟩ := List.mem_map.mp member
    exact entry.isRegular_toJson
  case h_10 => exact isRegular_null _
  all_goals exact Field.isRegular_optionToJson 3 _

namespace Definition

theorem isRegular_slotJson (definition : Definition) (slot : Slot) :
    (definition.slotJson slot).IsRegular 4 := by
  cases slot with
  | text name => exact Field.isRegular_optionToJson 3 _
  | _ => exact definition.target.isRegular_slotJson _

theorem isRegular_of_mem_body (definition : Definition) :
    ∀ entry ∈ definition.details.entries ++ definition.slotEntries, entry.2.IsRegular 4 := by
  intro entry member
  rcases List.mem_append.mp member with detail | ofSlot
  · exact definition.details.isRegular_of_mem_entries entry detail
  · obtain ⟨slot, -, rfl⟩ := List.mem_map.mp ofSlot
    exact definition.isRegular_slotJson slot

/-- No object in what a definition is written as holds a key twice, unless its kind has a slot
under the name of the tags. -/
theorem isDistinct_toJson (definition : Definition) :
    definition.toJson.isDistinct = true ↔ definition.kind ≠ .sshWinRmAzure := by
  have keys : (definition.details.entries ++ definition.slotEntries).map Prod.fst =
      Details.names ++ definition.kind.slots.map Slot.name := by
    rw [List.map_append, definition.details.map_fst_entries, slotEntries, Kind.map_fst_entriesOf]
  have values := entriesAreDistinct_of_forall fun entry member =>
    (definition.isRegular_of_mem_body entry member).isDistinct
  rw [toJson_eq, Json.ofChoice]
  simp only [Json.isDistinct, Json.entriesAreDistinct, keys, values, Bool.and_true, Bool.true_and,
    decide_eq_true_eq, Bool.and_eq_true]
  rw [Kind.nodup_names]
  simp

/-- A definition is written without numbers, and with collections nested six deep at most. -/
theorem fits_toJson (definition : Definition) : definition.toJson.fits 6 = true := by
  have values := entriesFit_of_forall fun entry member =>
    (definition.isRegular_of_mem_body entry member).fits
  simp [toJson_eq, Json.ofChoice, Json.fits, Json.entriesFit, values]

end Definition

end DeployTarget
