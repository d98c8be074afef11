import DeployTarget.Proofs.Canonical
import DeployTarget.Proofs.WrittenTags

/-!
# Legible definitions

What a definition carries is legible if it is read from what it is written as, and if it
has no text that its kind does not know.  Every definition that was read from a document is
legible.
-/

namespace DeployTarget

open Source Source.Typed Yaml

/-! ## Legible parts -/

def HostFilter.IsLegible : HostFilter → Prop
  | .all => True
  | .names value => value.IsLegible
  | .attributes value => value.IsLegible

def InstanceFilter.IsLegible (filter : InstanceFilter) : Prop :=
  ∀ tags ∈ filter.tags, tags.IsLegible

def Configuration.IsLegible : Configuration → Prop
  | .inline content => content.IsLegible
  | .files _ => True

def Variable.IsLegible (entry : Variable) : Prop :=
  ∀ value ∈ entry.value, value.IsLegible

/-- Whether what only a kind has is read from what it is written as. -/
def Target.IsLegible : Target → Prop
  | .kubernetesAzure useClusterAdminCredentials =>
      ∀ field ∈ useClusterAdminCredentials, field.IsLegible
  | .pdc hosts filter attributes =>
      (∀ field ∈ hosts, field.IsLegible) ∧ (∀ part ∈ filter, part.IsLegible) ∧
        ∀ field ∈ attributes, field.IsLegible
  | .sshWinRmAws filter => ∀ part ∈ filter, part.IsLegible
  | .sshWinRmAzure hostTags => ∀ field ∈ hostTags, field.IsLegible
  | .elastigroup configuration => ∀ part ∈ configuration, part.IsLegible
  | .customDeployment _ settings => ∀ entry ∈ settings, entry.IsLegible
  | _ => True

/-- Definitions whose fields are read from what they are written as, and which have no text
that their kind does not know. -/
structure Definition.IsLegible (definition : Definition) : Prop where
  unknown : ∀ name ∉ definition.kind.attributes, definition.text name = none
  texts : ∀ name, ∀ field ∈ definition.text name, field.IsLegible
  target : definition.target.IsLegible

theorem Kind.nodup_attributes (kind : Kind) : kind.attributes.Nodup := by
  cases kind <;> decide

section Reading

variable {ν : Type} [Source.Typed ν] {α : Type}

/-- What holds of every part that is read holds of an optional one. -/
theorem forall_mem_of_optional {read : ν → Option α} {holds : α → Prop}
    (each : ∀ data part, read data = some part → holds part) {entries : List (String × ν)}
    {name : String} {result : Option α}
    (succeeds : Source.optional none (option? read) entries name = some result) :
    ∀ part ∈ result, holds part := by
  rintro part ⟨⟩
  unfold Source.optional at succeeds
  split at succeeds
  next data found =>
    unfold option? at succeeds
    split at succeeds
    · cases succeeds
    · obtain ⟨other, readOther, same⟩ := Option.map_eq_some_iff.mp succeeds
      cases same
      exact each data part readOther
  · cases succeeds

theorem forall_mem_of_list? {read : ν → Option α} {holds : α → Prop}
    (each : ∀ data part, read data = some part → holds part) {entries : List (String × ν)}
    {name : String} {results : List α}
    (succeeds : Source.optional [] (list? read) entries name = some results) :
    ∀ part ∈ results, holds part := by
  intro part member
  unfold Source.optional at succeeds
  split at succeeds
  next data found =>
    obtain ⟨items, -, readItems⟩ := Option.bind_eq_some_iff.mp succeeds
    obtain ⟨item, -, readItem⟩ := exists_of_mem_mapM readItems part member
    exact each item part readItem
  · cases succeeds
    cases member

theorem Field.isLegible_of_read? [FieldValue α] [FieldValue.Lawful α] (data : ν) (field : Field α)
    (read : Field.read? data = some field) : field.IsLegible := by
  obtain ⟨raw, -, yields⟩ := Option.bind_eq_some_iff.mp read
  cases attempt : ofJson (α := α) raw.canonical with
  | error mismatch =>
      rw [attempt] at yields
      cases yields
  | ok result =>
      rw [attempt] at yields
      cases yields
      exact isLegible_of_ofJson attempt

theorem Field.isLegible_of_readOptional? [FieldValue α] [FieldValue.Lawful α]
    {entries : List (String × ν)} {name : String} {field : Option (Field α)}
    (read : Field.readOptional? entries name = some field) : ∀ part ∈ field, part.IsLegible :=
  forall_mem_of_optional Field.isLegible_of_read? read

theorem HostFilter.isLegible_of_read? (data : ν) (filter : HostFilter)
    (read : HostFilter.read? data = some filter) : filter.IsLegible := by
  refine Choice.of_read? HostFilter.IsLegible ?_ read
  intro μ _ tag body result read
  obtain ⟨way, -, read⟩ := Option.bind_eq_some_iff.mp read
  cases way with
  | all =>
      change (if body.all isNull then some HostFilter.all else none) = some result at read
      split at read
      · cases read
        trivial
      · cases read
  | names | attributes =>
      obtain ⟨entries, -, read⟩ := Option.bind_eq_some_iff.mp read
      obtain ⟨field, readField, rfl⟩ := Option.map_eq_some_iff.mp read
      obtain ⟨item, -, readItem⟩ := Option.bind_eq_some_iff.mp readField
      exact Field.isLegible_of_read? item field readItem

theorem InstanceFilter.isLegible_of_read? (data : ν) (filter : InstanceFilter)
    (read : InstanceFilter.read? data = some filter) : filter.IsLegible := by
  obtain ⟨entries, -, read⟩ := Option.bind_eq_some_iff.mp read
  obtain ⟨networks, -, read⟩ := Option.bind_eq_some_iff.mp read
  obtain ⟨tags, readTags, same⟩ := Option.bind_eq_some_iff.mp read
  cases same
  exact Field.isLegible_of_readOptional? readTags

theorem Configuration.isLegible_of_read? (data : ν) (configuration : Configuration)
    (read : Configuration.read? data = some configuration) : configuration.IsLegible := by
  obtain ⟨entries, -, read⟩ := Option.bind_eq_some_iff.mp read
  obtain ⟨item, -, read⟩ := Option.bind_eq_some_iff.mp read
  refine Choice.of_read? Configuration.IsLegible ?_ read
  intro μ _ tag body result read
  obtain ⟨place, -, read⟩ := Option.bind_eq_some_iff.mp read
  cases place with
  | inline =>
      obtain ⟨entries, -, read⟩ := Option.bind_eq_some_iff.mp read
      obtain ⟨field, readField, rfl⟩ := Option.map_eq_some_iff.mp read
      obtain ⟨item, -, readItem⟩ := Option.bind_eq_some_iff.mp readField
      exact Field.isLegible_of_read? item field readItem
  | files =>
      obtain ⟨entries, -, read⟩ := Option.bind_eq_some_iff.mp read
      obtain ⟨paths, -, rfl⟩ := Option.map_eq_some_iff.mp read
      trivial

theorem Variable.isLegible_of_read? (data : ν) (entry : Variable)
    (read : Variable.read? data = some entry) : entry.IsLegible := by
  obtain ⟨entries, -, read⟩ := Option.bind_eq_some_iff.mp read
  obtain ⟨name, -, read⟩ := Option.bind_eq_some_iff.mp read
  obtain ⟨value, readValue, same⟩ := Option.bind_eq_some_iff.mp read
  cases same
  exact Field.isLegible_of_readOptional? readValue

theorem Target.isLegible_of_ofEntries? {kind : Kind} {entries : List (String × ν)}
    {target : Target} (read : Target.ofEntries? kind entries = some target) :
    target.IsLegible := by
  cases kind
  case kubernetesAzure | sshWinRmAzure =>
    obtain ⟨field, readField, rfl⟩ := Option.map_eq_some_iff.mp read
    exact Field.isLegible_of_readOptional? readField
  case sshWinRmAws =>
    obtain ⟨filter, readFilter, rfl⟩ := Option.map_eq_some_iff.mp read
    exact forall_mem_of_optional InstanceFilter.isLegible_of_read? readFilter
  case elastigroup =>
    obtain ⟨configuration, readPart, rfl⟩ := Option.map_eq_some_iff.mp read
    exact forall_mem_of_optional Configuration.isLegible_of_read? readPart
  case pdc =>
    obtain ⟨hosts, readHosts, read⟩ := Option.bind_eq_some_iff.mp read
    obtain ⟨filter, readFilter, read⟩ := Option.bind_eq_some_iff.mp read
    obtain ⟨attributes, readAttributes, same⟩ := Option.bind_eq_some_iff.mp read
    cases same
    exact ⟨Field.isLegible_of_readOptional? readHosts,
      forall_mem_of_optional HostFilter.isLegible_of_read? readFilter,
      Field.isLegible_of_readOptional? readAttributes⟩
  case customDeployment =>
    obtain ⟨template, -, read⟩ := Option.bind_eq_some_iff.mp read
    obtain ⟨settings, readSettings, same⟩ := Option.bind_eq_some_iff.mp read
    cases same
    exact forall_mem_of_list? Variable.isLegible_of_read? readSettings
  all_goals
    cases read
    trivial

namespace Definition

/-- The texts of a kind are read one by one, and there are no others. -/
theorem readTexts?_eq_some_iff {kind : Kind} {entries : List (String × ν)}
    {text : Attribute → Option (Field String)} :
    readTexts? kind entries = some text ↔
      (∀ name ∈ kind.attributes, Field.readOptional? entries name.name = some (text name)) ∧
        ∀ name ∉ kind.attributes, text name = none := by
  constructor
  · intro read
    obtain ⟨fields, readFields, same⟩ := Option.bind_eq_some_iff.mp read
    cases same
    have eachNamed : List.Forall₂ (fun name entry => name = Prod.fst entry) kind.attributes
        fields := (mapM_eq_some_iff.mp readFields).imp fun name entry readOne => by
      obtain ⟨field, -, same⟩ := Option.bind_eq_some_iff.mp readOne
      cases same
      rfl
    have keys : fields.map Prod.fst = kind.attributes := by
      rw [← List.forall₂_map_right_iff, List.forall₂_eq_eq_eq] at eachNamed
      exact eachNamed.symm
    refine ⟨fun name listed => ?_, fun name unlisted => ?_⟩
    · obtain ⟨entry, member, readOne⟩ := exists_of_mapM_eq_some readFields listed
      obtain ⟨field, readField, same⟩ := Option.bind_eq_some_iff.mp readOne
      cases same
      have found : fields.lookup name = some field :=
        lookup_of_mem (keys.symm ▸ kind.nodup_attributes) member
      change _ = some (fields.lookup name).join
      rw [readField, found]
      rfl
    · have absent : fields.lookup name = none :=
        lookup_eq_none_of_not_mem_keys (keys.symm ▸ unlisted)
      change (fields.lookup name).join = none
      rw [absent]
      rfl
  · rintro ⟨each, others⟩
    have fields : (kind.attributes.mapM fun name => do
        let field ← Field.readOptional? (α := String) entries name.name
        return (name, field)) = some (kind.attributes.map fun name => (name, text name)) := by
      refine mapM_eq_some_map fun name listed => ?_
      rw [each name listed]
      rfl
    have keys : (kind.attributes.map fun name => (name, text name)).map Prod.fst =
        kind.attributes := by
      simp [Function.comp_def]
    rw [readTexts?, fields]
    refine congrArg some (funext fun name => ?_)
    by_cases listed : name ∈ kind.attributes
    · have found : (kind.attributes.map fun name => (name, text name)).lookup name =
          some (text name) :=
        lookup_of_mem (keys.symm ▸ kind.nodup_attributes) (List.mem_map.mpr ⟨name, listed, rfl⟩)
      rw [found]
      rfl
    · have absent : name ∉ (kind.attributes.map fun name => (name, text name)).map Prod.fst :=
        keys.symm ▸ listed
      rw [lookup_eq_none_of_not_mem_keys absent, others name listed]
      rfl

theorem isLegible_of_readTexts? {kind : Kind} {entries : List (String × ν)}
    {text : Attribute → Option (Field String)} (read : readTexts? kind entries = some text)
    (name : Attribute) : ∀ field ∈ text name, field.IsLegible := by
  obtain ⟨each, others⟩ := readTexts?_eq_some_iff.mp read
  by_cases listed : name ∈ kind.attributes
  · exact Field.isLegible_of_readOptional? (each name listed)
  · rw [others name listed]
    rintro _ ⟨⟩

theorem isLegible_of_readBody? {tag : String} {body : Option ν} {definition : Definition}
    (read : readBody? tag body = some definition) : definition.IsLegible := by
  obtain ⟨kind, -, read⟩ := Option.bind_eq_some_iff.mp read
  obtain ⟨entries, -, read⟩ := Option.bind_eq_some_iff.mp read
  obtain ⟨own, -, read⟩ := Option.bind_eq_some_iff.mp read
  obtain ⟨others, -, read⟩ := Option.bind_eq_some_iff.mp read
  obtain ⟨details, -, read⟩ := Option.bind_eq_some_iff.mp read
  obtain ⟨text, readTexts, read⟩ := Option.bind_eq_some_iff.mp read
  obtain ⟨target, readTarget, same⟩ := Option.bind_eq_some_iff.mp read
  cases same
  have sameKind : target.kind = kind := Target.kind_of_ofEntries? readTarget
  exact {
    unknown := fun name unlisted =>
      (readTexts?_eq_some_iff.mp readTexts).2 name (sameKind ▸ unlisted)
    texts := isLegible_of_readTexts? readTexts
    target := Target.isLegible_of_ofEntries? readTarget }

end Definition

end Reading

/-- A definition that was read from a document is legible. -/
theorem Definition.isLegible_of_ofValue {value : Value} {definition : Definition}
    (parsed : ofValue value = .ok definition) : definition.IsLegible :=
  Choice.of_read? Definition.IsLegible (fun _ _ _ read => isLegible_of_readBody? read)
    (read?_of_ofValue parsed)

end DeployTarget
