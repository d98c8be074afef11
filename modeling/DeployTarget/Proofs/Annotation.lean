import DeployTarget.Definition.Writer
import DeployTarget.Resolution
import DeployTarget.Yaml.Writer
import Mathlib.Data.List.Forall2

/-!
# Values that show their expression

A field whose expression has been given a value keeps the expression beside the value, but
nothing reads it any more.  Erasing it, so that the value stands as a literal, changes neither
the checks of a definition nor its resolution nor its text.  A literal can therefore be
annotated with any expression, at any place of a definition, and nobody can tell.
-/

namespace DeployTarget

/-- Optional values that are related agree in what all related values agree in. -/
private theorem map_eq_of_rel {α β : Type} {related : α → α → Prop} {view : α → β}
    (same : ∀ first second, related first second → view second = view first)
    {first second : Option α} (relatedOptions : Option.Rel related first second) :
    second.map view = first.map view := by
  cases relatedOptions with
  | none => rfl
  | some both => exact congrArg some (same _ _ both)

/-! ## Fields -/

namespace Field

variable {α : Type}

/-- Relates a field to itself, and a literal to its value with an expression beside it. -/
inductive Annotated : Field α → Field α → Prop
  | kept (field : Field α) : Annotated field field
  | beside (text : String) (value : α) : Annotated (.literal value) (.resolved text value)

/-- The field without the expression beside its value. -/
def erased : Field α → Field α
  | .resolved _ value => .literal value
  | field => field

theorem Annotated.erased_eq {first second : Field α} (annotated : Annotated first second) :
    second.erased = first.erased := by
  cases annotated with
  | kept field => rfl
  | beside text value => rfl

@[simp]
theorem value?_erased (field : Field α) : field.erased.value? = field.value? := by
  cases field <;> rfl

@[simp]
theorem bind_value?_erased (field : Option (Field α)) :
    (field.map erased).bind value? = field.bind value? := by
  cases field with
  | none => rfl
  | some field => exact value?_erased field

@[simp]
theorem bind_unresolved?_erased (field : Option (Field α)) :
    (field.map erased).bind unresolved? = field.bind unresolved? := by
  rcases field with - | (_ | _ | _ | _) <;> rfl

@[simp]
theorem toJson_erased [FieldValue α] (field : Field α) :
    field.erased.toJson = field.toJson := by
  cases field <;> rfl

@[simp]
theorem optionToJson_erased [FieldValue α] (field : Option (Field α)) :
    optionToJson (field.map erased) = optionToJson field := by
  cases field with
  | none => rfl
  | some field => exact toJson_erased field

@[simp]
theorem plain_erased (field : Option (Field String)) (name : String) :
    plain (field.map erased) name = plain field name := by
  rcases field with - | (_ | _ | _ | _) <;> rfl

@[simp]
theorem provisioned_erased (dynamic : Bool) (field : Option (Field String)) (name : String)
    (mode : Mode) :
    provisioned dynamic (field.map erased) name mode =
      provisioned dynamic field name mode := by
  cases dynamic with
  | false => exact plain_erased field name
  | true => rcases field with - | (_ | _ | _ | _) <;> rfl

@[simp]
theorem provisionedText_erased (dynamic : Bool) (field : Option (Field String))
    (name : String) (mode : Mode) :
    provisionedText dynamic (field.map erased) name mode =
      provisionedText dynamic field name mode := by
  rw [provisionedText, provisioned_erased, provisionedText]

@[simp]
theorem releaseName_erased (dynamic : Bool) (service : Option Service)
    (field : Option (Field String)) :
    releaseName dynamic service (field.map erased) = releaseName dynamic service field := by
  rw [releaseName, provisionedText_erased, releaseName]

@[simp]
theorem provisionedValue_erased [FieldValue α] (dynamic : Bool) (field : Option (Field α))
    (name : String) (mode : Mode) :
    provisionedValue dynamic (field.map erased) name mode =
      provisionedValue dynamic field name mode := by
  rcases field with - | (_ | _ | _ | _) <;> cases dynamic <;> rfl

end Field

namespace Validation

variable {α : Type} [FieldValue α]

@[simp]
theorem require_erased (dynamic : Bool) (field : Option (Field α)) (name : String)
    (presence : Presence) :
    require dynamic (field.map Field.erased) name presence =
      require dynamic field name presence := by
  rcases field with - | (_ | _ | _ | _) <;> rfl

@[simp]
theorem hasValueOrExpression_erased (field : Option (Field α)) :
    hasValueOrExpression (field.map Field.erased) = hasValueOrExpression field := by
  rcases field with - | (_ | _ | _ | _) <;> rfl

end Validation

/-! ## Parts of definitions -/

namespace HostFilter

inductive Annotated : HostFilter → HostFilter → Prop
  | all : Annotated .all .all
  | names {first second : Field (List String)} (value : first.Annotated second) :
      Annotated (.names first) (.names second)
  | attributes {first second : Field Tags} (value : first.Annotated second) :
      Annotated (.attributes first) (.attributes second)

def erased : HostFilter → HostFilter
  | .all => .all
  | .names value => .names value.erased
  | .attributes value => .attributes value.erased

theorem Annotated.erased_eq {first second : HostFilter} (annotated : Annotated first second) :
    second.erased = first.erased := by
  cases annotated with
  | all => rfl
  | names value => exact congrArg HostFilter.names value.erased_eq
  | attributes value => exact congrArg HostFilter.attributes value.erased_eq

@[simp]
theorem toJson_erased (filter : HostFilter) : filter.erased.toJson = filter.toJson := by
  cases filter <;> simp [erased, toJson]

@[simp]
theorem selection_erased (filter : Option HostFilter) :
    selection (filter.map erased) = selection filter := by
  rcases filter with - | (_ | _ | _) <;> simp [erased, selection]

end HostFilter

namespace InstanceFilter

structure Annotated (first second : InstanceFilter) : Prop where
  networks : second.networks = first.networks
  tags : Option.Rel Field.Annotated first.tags second.tags

def erased (filter : InstanceFilter) : InstanceFilter :=
  ⟨filter.networks, filter.tags.map Field.erased⟩

theorem Annotated.erased_eq {first second : InstanceFilter}
    (annotated : Annotated first second) : second.erased = first.erased := by
  have tags := map_eq_of_rel (fun _ _ => Field.Annotated.erased_eq) annotated.tags
  rw [erased, annotated.networks, tags, erased]

@[simp]
theorem toJson_erased (filter : InstanceFilter) : filter.erased.toJson = filter.toJson := by
  simp [erased, toJson]

end InstanceFilter

namespace Configuration

inductive Annotated : Configuration → Configuration → Prop
  | inline {first second : Field String} (content : first.Annotated second) :
      Annotated (.inline first) (.inline second)
  | files (paths : List String) : Annotated (.files paths) (.files paths)

def erased : Configuration → Configuration
  | .inline content => .inline content.erased
  | .files paths => .files paths

theorem Annotated.erased_eq {first second : Configuration}
    (annotated : Annotated first second) : second.erased = first.erased := by
  cases annotated with
  | inline content => exact congrArg Configuration.inline content.erased_eq
  | files paths => rfl

@[simp]
theorem toJson_erased (configuration : Configuration) :
    configuration.erased.toJson = configuration.toJson := by
  cases configuration <;> simp [erased, toJson]

end Configuration

namespace Variable

structure Annotated (first second : Variable) : Prop where
  name : second.name = first.name
  value : Option.Rel Field.Annotated first.value second.value

def erased (entry : Variable) : Variable :=
  ⟨entry.name, entry.value.map Field.erased⟩

theorem Annotated.erased_eq {first second : Variable} (annotated : Annotated first second) :
    second.erased = first.erased := by
  have value := map_eq_of_rel (fun _ _ => Field.Annotated.erased_eq) annotated.value
  rw [erased, annotated.name, value, erased]

theorem map_erased_eq {first second : List Variable}
    (annotated : List.Forall₂ Annotated first second) :
    second.map erased = first.map erased := by
  induction annotated with
  | nil => rfl
  | cons entry rest ih => rw [List.map_cons, entry.erased_eq, ih, List.map_cons]

@[simp]
theorem toJson_erased (entry : Variable) : entry.erased.toJson = entry.toJson := by
  simp [erased, toJson]

end Variable

/-! ## Definitions -/

namespace Target

/-- Relates the fields of a target, those in its parts included. -/
inductive Annotated : Target → Target → Prop
  | kept (target : Target) : Annotated target target
  | kubernetesAzure {first second : Option (Field Bool)}
      (flag : Option.Rel Field.Annotated first second) :
      Annotated (.kubernetesAzure first) (.kubernetesAzure second)
  | pdc {firstHosts secondHosts : Option (Field HostList)}
      {firstFilter secondFilter : Option HostFilter}
      {firstAttributes secondAttributes : Option (Field Tags)}
      (hosts : Option.Rel Field.Annotated firstHosts secondHosts)
      (filter : Option.Rel HostFilter.Annotated firstFilter secondFilter)
      (attributes : Option.Rel Field.Annotated firstAttributes secondAttributes) :
      Annotated (.pdc firstHosts firstFilter firstAttributes)
        (.pdc secondHosts secondFilter secondAttributes)
  | sshWinRmAws {first second : Option InstanceFilter}
      (filter : Option.Rel InstanceFilter.Annotated first second) :
      Annotated (.sshWinRmAws first) (.sshWinRmAws second)
  | sshWinRmAzure {first second : Option (Field Tags)}
      (hostTags : Option.Rel Field.Annotated first second) :
      Annotated (.sshWinRmAzure first) (.sshWinRmAzure second)
  | elastigroup {first second : Option Configuration}
      (configuration : Option.Rel Configuration.Annotated first second) :
      Annotated (.elastigroup first) (.elastigroup second)
  | customDeployment (template : Option TemplateRef) {first second : List Variable}
      (settings : List.Forall₂ Variable.Annotated first second) :
      Annotated (.customDeployment template first) (.customDeployment template second)

def erased : Target → Target
  | .kubernetesAzure flag => .kubernetesAzure (flag.map Field.erased)
  | .pdc hosts filter attributes =>
      .pdc (hosts.map Field.erased) (filter.map HostFilter.erased)
        (attributes.map Field.erased)
  | .sshWinRmAws filter => .sshWinRmAws (filter.map InstanceFilter.erased)
  | .sshWinRmAzure hostTags => .sshWinRmAzure (hostTags.map Field.erased)
  | .elastigroup configuration => .elastigroup (configuration.map Configuration.erased)
  | .customDeployment template settings =>
      .customDeployment template (settings.map Variable.erased)
  | target => target

theorem Annotated.erased_eq {first second : Target} (annotated : Annotated first second) :
    second.erased = first.erased := by
  have fields {α : Type} {first second : Option (Field α)}
      (related : Option.Rel Field.Annotated first second) :
      second.map Field.erased = first.map Field.erased :=
    map_eq_of_rel (fun _ _ => Field.Annotated.erased_eq) related
  cases annotated with
  | kept target => rfl
  | kubernetesAzure flag => rw [erased, fields flag, erased]
  | pdc hosts filter attributes =>
      rw [erased, fields hosts, fields attributes,
        map_eq_of_rel @HostFilter.Annotated.erased_eq filter, erased]
  | sshWinRmAws filter =>
      rw [erased, map_eq_of_rel @InstanceFilter.Annotated.erased_eq filter, erased]
  | sshWinRmAzure hostTags => rw [erased, fields hostTags, erased]
  | elastigroup configuration =>
      rw [erased, map_eq_of_rel @Configuration.Annotated.erased_eq configuration, erased]
  | customDeployment template settings =>
      rw [erased, Variable.map_erased_eq settings, erased]

@[simp]
theorem kind_erased (target : Target) : target.erased.kind = target.kind := by
  cases target <;> rfl

@[simp]
theorem slotJson_erased (target : Target) (slot : Slot) :
    target.erased.slotJson slot = target.slotJson slot := by
  cases target <;> cases slot <;> simp [erased, slotJson, Function.comp_def]

end Target

namespace Definition

open Validation

/-- Relates definitions whose literals, at any places, may be annotated with expressions. -/
structure Annotated (first second : Definition) : Prop where
  details : second.details = first.details
  text : ∀ name, Option.Rel Field.Annotated (first.text name) (second.text name)
  target : first.target.Annotated second.target

def erased (definition : Definition) : Definition where
  details := definition.details
  text name := (definition.text name).map Field.erased
  target := definition.target.erased

theorem Annotated.erased_eq {first second : Definition} (annotated : Annotated first second) :
    second.erased = first.erased := by
  have texts : (fun name => (second.text name).map Field.erased) =
      fun name => (first.text name).map Field.erased :=
    funext fun name => map_eq_of_rel (fun _ _ => Field.Annotated.erased_eq) (annotated.text name)
  rw [erased, annotated.details, texts, annotated.target.erased_eq, erased]

variable (definition : Definition)

@[simp]
theorem details_erased : definition.erased.details = definition.details :=
  rfl

@[simp]
theorem text_erased (name : Attribute) :
    definition.erased.text name = (definition.text name).map Field.erased :=
  rfl

@[simp]
theorem target_erased : definition.erased.target = definition.target.erased :=
  rfl

@[simp]
theorem kind_erased : definition.erased.kind = definition.kind :=
  definition.target.kind_erased

theorem toJson_erased : definition.erased.toJson = definition.toJson := by
  have slots : definition.erased.slotJson = definition.slotJson := by
    funext slot
    cases slot with
    | text name => rw [slotJson, text_erased, Field.optionToJson_erased, slotJson]
    | _ => simp [slotJson]
  rw [toJson, slots, kind_erased, details_erased, toJson]

/-! ## Checks -/

@[simp]
theorem unresolved?_erased : definition.erased.unresolved? = definition.unresolved? := by
  funext name
  exact Field.bind_unresolved?_erased (definition.text name)

theorem checkTemplate_erased : definition.erased.checkTemplate = definition.checkTemplate := by
  unfold checkTemplate
  rw [target_erased]
  cases definition.target with
  | customDeployment template settings => cases template <;> rfl
  | _ => rfl

theorem scannedTexts_erased : definition.erased.scannedTexts = definition.scannedTexts := by
  unfold scannedTexts
  rw [target_erased]
  cases definition.target with
  | customDeployment template settings => cases template <;> rfl
  | _ => rfl

theorem checkAlternatives_erased :
    definition.erased.checkAlternatives = definition.checkAlternatives := by
  unfold checkAlternatives
  rw [target_erased]
  cases definition.target <;> simp [Target.erased]

theorem checkRequirement_erased :
    definition.erased.checkRequirement = definition.checkRequirement := by
  funext dynamic requirement
  exact require_erased dynamic (definition.text requirement.name) _ _

theorem checkTarget_erased (dynamic : Bool) :
    definition.erased.checkTarget dynamic = definition.checkTarget dynamic := by
  unfold checkTarget
  rw [target_erased]
  cases definition.target with
  | pdc hosts filter attributes => simp [Target.erased, checkHosts]
  | sshWinRmAws filter => cases filter <;> rfl
  | elastigroup configuration => cases configuration <;> rfl
  | customDeployment template settings => cases template <;> rfl
  | _ => rfl

theorem logNamespace_erased : definition.erased.logNamespace = definition.logNamespace := by
  simp [logNamespace, loggedNamespace?]

theorem check_erased (dynamic : Bool) :
    definition.erased.check dynamic = definition.check dynamic := by
  rw [check, scan, checkTemplate_erased, unresolved?_erased, scannedTexts_erased,
    checkAlternatives_erased, checkRequirement_erased, checkTarget_erased, logNamespace_erased,
    kind_erased, check, scan]

theorem validate_erased (environment : Environment) :
    definition.erased.validate environment = definition.validate environment := by
  have dynamic : definition.erased.isDynamic = definition.isDynamic := by simp [isDynamic]
  rw [validate_eq, dynamic, check_erased, details_erased, validate_eq]

/-! ## Reads -/

variable (surroundings : Surroundings) (dynamic : Bool)

theorem readAll_erased (readings : List Reading) :
    Reading.readAll surroundings definition.erased dynamic readings =
      Reading.readAll surroundings definition dynamic readings := by
  have read (reading : Reading) : reading.read surroundings definition.erased dynamic =
      reading.read surroundings definition dynamic := by
    simp [Reading.read]
  induction readings with
  | nil => rfl
  | cons reading rest ih => rw [Reading.readAll, read, ih, Reading.readAll]

theorem readHosts_erased (attributes : Option (Field Tags)) :
    definition.erased.readHosts (attributes.map Field.erased) =
      definition.readHosts attributes := by
  simp [readHosts]

theorem readVariables_erased (entries : List Variable) :
    readVariables (entries.map Variable.erased) = readVariables entries := by
  induction entries with
  | nil => rfl
  | cons entry rest ih => simp [readVariables, Variable.erased, ih]

theorem outcome_erased :
    definition.erased.outcome surroundings dynamic =
      definition.outcome surroundings dynamic := by
  have template : definition.erased.template? = definition.template? := by
    unfold template?
    rw [target_erased]
    cases definition.target <;> rfl
  have keyText : definition.erased.keyText? = definition.keyText? := by
    funext texts part
    cases part <;> simp [keyText?, template]
  funext texts extra
  simp [outcome, common, key, reported, keyText]

theorem readTarget_erased (texts : Texts) :
    definition.erased.readTarget surroundings dynamic texts =
      definition.readTarget surroundings dynamic texts := by
  unfold readTarget
  rw [outcome_erased, target_erased]
  cases definition.target with
  | kubernetesAzure flag => simp [Target.erased]
  | pdc hosts filter attributes => simp [Target.erased, readHosts_erased]
  | sshWinRmAws filter =>
      have tags : (filter.map InstanceFilter.erased).bind (·.tags) =
          (filter.bind (·.tags)).map Field.erased := by
        cases filter <;> rfl
      simp only [Target.erased, tags, readConnectionType, readAll_erased,
        Field.provisionedValue_erased]
  | sshWinRmAzure hostTags =>
      simp [Target.erased, readConnectionType, readAll_erased]
  | customDeployment template settings => simp [Target.erased, readVariables_erased]
  | _ => rfl

theorem addConnector_erased (outcome : Outcome) :
    definition.erased.addConnector surroundings outcome =
      definition.addConnector surroundings outcome := by
  simp [addConnector, connectorRef, connectorName]

theorem resolve_erased :
    definition.erased.resolve surroundings = definition.resolve surroundings := by
  have dynamic : definition.erased.isDynamic = definition.isDynamic := by simp [isDynamic]
  simp only [resolve_eq, validate_erased, resolveFields, readAll_erased, readTarget_erased,
    addConnector_erased, dynamic, kind_erased, details_erased]

/-- Expressions beside the values of a definition cannot be told from outside: they change
neither what checking and resolving the definition do in any run, its calls and its result
included, nor the texts that the definition is written as. -/
theorem runs_of_annotated {first second : Definition} (annotated : first.Annotated second)
    (surroundings : Surroundings) (world : World) (cancelAfter : Option Nat) :
    (second.validate surroundings.environment).run world cancelAfter =
        (first.validate surroundings.environment).run world cancelAfter ∧
      (second.resolve surroundings).run world cancelAfter =
        (first.resolve surroundings).run world cancelAfter ∧
      Yaml.write second.toJson = Yaml.write first.toJson ∧
      second.toJson.compact = first.toJson.compact := by
  have same := annotated.erased_eq
  have written : second.toJson = first.toJson := by
    rw [← second.toJson_erased, same, first.toJson_erased]
  refine ⟨?_, ?_, congrArg Yaml.write written, congrArg Json.compact written⟩
  · rw [← second.validate_erased, same, first.validate_erased]
  · rw [← second.resolve_erased, same, first.resolve_erased]

/-- Hosts in a cloud account, with the fields that are given for their region and tags. -/
def sampleHosts (region : Field String) (tags : Field Tags) : Definition where
  details := ⟨"hosts", "Hosts", .empty, true, none⟩
  text
    | .connectorRef => some (.literal "account")
    | .credentialsRef => some (.literal "credentials")
    | .region => some region
    | .hostConnectionType => some (.literal "PublicIP")
    | _ => none
  target := .sshWinRmAws (some ⟨[], some tags⟩)

/-- Hosts whose region and tags come from expressions that have been given values resolve as
those whose region and tags were written down, and are written alike. -/
theorem runs_of_annotated_sampleHosts :
    let surroundings : Surroundings :=
      ⟨.unnamed, ⟨"environment", none, .production⟩, none, .empty⟩
    let world : World := ⟨fun _ => .ok none, fun _ => .ok none⟩
    let tags : Tags := .ofList [("role", "web")]
    let written := sampleHosts (.literal "north") (.literal tags)
    let valued := sampleHosts (.resolved "<+region>" "north") (.resolved "<+tags>" tags)
    written.Annotated valued ∧
      (∃ outcome, outcome.extra = .instances (some tags) ∧
        ((valued.resolve surroundings).run world none).result = .ok outcome) ∧
      Yaml.write valued.toJson = Yaml.write written.toJson := by
  intro surroundings world tags written valued
  have annotated : written.Annotated valued := by
    refine ⟨rfl, fun name => ?_, .sshWinRmAws (.some ⟨rfl, .some (.beside _ _)⟩)⟩
    cases name with
    | region => exact .some (.beside _ _)
    | connectorRef | credentialsRef | hostConnectionType => exact .some (.kept _)
    | _ => exact .none
  obtain ⟨-, resolves, texts, -⟩ := runs_of_annotated annotated surroundings world none
  refine ⟨annotated, ⟨_, ?_, (congrArg Run.result resolves).trans rfl⟩, texts⟩
  rfl

end Definition

end DeployTarget
