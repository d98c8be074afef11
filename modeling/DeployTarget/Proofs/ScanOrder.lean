import DeployTarget.Proofs.Locality
import DeployTarget.Proofs.Origins

/-!
# What the scan reports

The fields that a kind scans have an order.  Where some of them are expressions without values,
the first one decides what the definition is refused for, and whatever else is wrong with the
definition counts for nothing: fields that are missing or wait for input, parts that are missing,
rules of the kind that are broken.  Only a custom deployment without a template is refused before
its fields are scanned.
-/

namespace DeployTarget

/-- A field that is scanned for an expression without a value. -/
inductive ScannedField where
  | text (name : Attribute)
  /-- The identifier of the template of a custom deployment. -/
  | template
  /-- The version of that template. -/
  | version
deriving DecidableEq

namespace Kind

/-- The fields that only one kind has and that are scanned. -/
def scannedParts : Kind → List ScannedField
  | .customDeployment => [.template, .version]
  | _ => []

/-- The fields that are scanned, in their order.  Where values come from a provisioner, some of
them are not looked at. -/
def scanOrder (kind : Kind) (dynamic : Bool) : List ScannedField :=
  kind.scanned.map .text ++ kind.scannedParts ++
    if dynamic then [] else kind.scannedWhenStatic.map .text

end Kind

namespace Validation

variable {first second : List (Option String)}

/-- The scan is refused for the first expression that it meets. -/
theorem ensureResolved_of_first {before behind : List (Option String)} {text : String}
    (noneBefore : ∀ entry ∈ before, entry = none) :
    ensureResolved (before ++ some text :: behind) =
      .error (.invalidRequest (.unresolvedExpression text)) := by
  have found : (before ++ some text :: behind).findSome? id = some text := by
    rw [List.findSome?_eq_some_iff]
    exact ⟨before, some text, behind, rfl, rfl, noneBefore⟩
  rw [ensureResolved, found]

/-- Two scans in a row are one. -/
theorem ensureResolved_append :
    ensureResolved (first ++ second) = (do ensureResolved first; ensureResolved second) := by
  simp only [ensureResolved, List.findSome?_append]
  cases first.findSome? id <;> rfl

end Validation

namespace Definition

open Validation

variable {definition : Definition} {text : String}

/-- Whether a custom deployment names no template. -/
def LacksTemplate (definition : Definition) : Prop :=
  ∃ settings, definition.target = .customDeployment none settings

/-- Says that a scanned field is present and is an expression without a value. -/
inductive Unresolved (definition : Definition) : ScannedField → String → Prop
  | text {name : Attribute} {text : String}
      (written : definition.text name = some (.expression text)) :
      Unresolved definition (.text name) text
  | template {reference : TemplateRef} (named : definition.template? = some reference)
      (isExpression : Field.isExpressionText reference.template = true) :
      Unresolved definition .template reference.template
  | version {reference : TemplateRef} (named : definition.template? = some reference)
      (isExpression : Field.isExpressionText reference.version = true) :
      Unresolved definition .version reference.version

/-- Says that an expression is the first one without a value among the scanned fields. -/
def FirstUnresolved (definition : Definition) (text : String) : Prop :=
  ∃ before field behind,
    definition.kind.scanOrder definition.isDynamic = before ++ field :: behind ∧
      definition.Unresolved field text ∧
      ∀ other ∈ before, ∀ text, ¬ definition.Unresolved other text

/-- What the scan sees of a field: its expression, if it is one without a value. -/
def seen? (definition : Definition) : ScannedField → Option String
  | .text name => definition.unresolved? name
  | .template => definition.template?.bind fun reference => expressionText? reference.template
  | .version => definition.template?.bind fun reference => expressionText? reference.version

/-- The scan sees those fields that are expressions without values. -/
theorem seen?_eq_some_iff {field : ScannedField} :
    definition.seen? field = some text ↔ definition.Unresolved field text := by
  have shown (written : String) :
      expressionText? written = some text ↔
        Field.isExpressionText written = true ∧ written = text := by
    simp [expressionText?]
  constructor
  · intro seen
    cases field with
    | text name => exact .text (Field.bind_unresolved?_eq_some_iff.mp seen)
    | template =>
        obtain ⟨reference, named, expressed⟩ := Option.bind_eq_some_iff.mp seen
        obtain ⟨isExpression, rfl⟩ := (shown _).mp expressed
        exact .template named isExpression
    | version =>
        obtain ⟨reference, named, expressed⟩ := Option.bind_eq_some_iff.mp seen
        obtain ⟨isExpression, rfl⟩ := (shown _).mp expressed
        exact .version named isExpression
  · intro unresolved
    cases unresolved with
    | text written => exact Field.bind_unresolved?_eq_some_iff.mpr written
    | template named isExpression =>
        exact Option.bind_eq_some_iff.mpr ⟨_, named, (shown _).mpr ⟨isExpression, rfl⟩⟩
    | version named isExpression =>
        exact Option.bind_eq_some_iff.mpr ⟨_, named, (shown _).mpr ⟨isExpression, rfl⟩⟩

theorem checkTemplate_of_named (named : ¬ definition.LacksTemplate) :
    definition.checkTemplate = .ok () := by
  unfold checkTemplate
  split
  · next settings lacking => exact absurd ⟨settings, lacking⟩ named
  · rfl

/-- The texts that only one kind has are scanned in their order. -/
theorem scannedTexts_of_named (named : ¬ definition.LacksTemplate) :
    definition.scannedTexts = definition.kind.scannedParts.map definition.seen? := by
  obtain ⟨details, written, target⟩ := definition
  cases target with
  | customDeployment reference settings =>
      cases reference with
      | none => exact absurd ⟨settings, rfl⟩ named
      | some reference => rfl
  | _ => rfl

/-- Unless a template is missing, checking begins with the scan of all fields in their order. -/
theorem verdict_of_named (named : ¬ definition.LacksTemplate) (dynamic : Bool) :
    definition.verdict dynamic = (do
      ensureResolved ((definition.kind.scanOrder dynamic).map definition.seen?)
      definition.checkAlternatives
      definition.kind.requirements.forM (definition.checkRequirement dynamic)
      definition.checkTarget dynamic) := by
  have relaxed : ensureProvisionedResolved dynamic
      (definition.kind.scannedWhenStatic.map definition.unresolved?) =
      ensureResolved ((if dynamic then [] else definition.kind.scannedWhenStatic.map
        ScannedField.text).map definition.seen?) := by
    cases dynamic with
    | false => simp [ensureProvisionedResolved, seen?, Function.comp_def]
    | true => rfl
  have scanned : definition.kind.scanned.map definition.unresolved? =
      (definition.kind.scanned.map ScannedField.text).map definition.seen? := by
    simp [seen?, Function.comp_def]
  simp only [verdict, scan, checkTemplate_of_named named, scannedTexts_of_named named, relaxed,
    scanned, Kind.scanOrder, List.map_append, ensureResolved_append, bind_assoc]
  rfl

/-- Where scanned fields are expressions without values, one of them is the first. -/
theorem exists_firstUnresolved {field : ScannedField}
    (scanned : field ∈ definition.kind.scanOrder definition.isDynamic)
    (unresolved : definition.Unresolved field text) :
    ∃ first, definition.FirstUnresolved first := by
  have met : ((definition.kind.scanOrder definition.isDynamic).findSome?
      definition.seen?).isSome = true := by
    rw [List.findSome?_isSome_iff]
    exact ⟨field, scanned, by rw [seen?_eq_some_iff.mpr unresolved]; rfl⟩
  obtain ⟨first, found⟩ := Option.isSome_iff_exists.mp met
  obtain ⟨before, other, behind, order, seen, unseen⟩ := List.findSome?_eq_some_iff.mp found
  refine ⟨first, before, other, behind, order, seen?_eq_some_iff.mp seen, ?_⟩
  intro earlier member text held
  have seen := seen?_eq_some_iff.mpr held
  rw [unseen earlier member] at seen
  cases seen

/-- The first expression without a value decides the verdict, unless a template is missing. -/
theorem verdict_of_firstUnresolved (named : ¬ definition.LacksTemplate)
    (first : definition.FirstUnresolved text) :
    definition.verdict definition.isDynamic =
      .error (.invalidRequest (.unresolvedExpression text)) := by
  obtain ⟨before, field, behind, order, unresolved, earlier⟩ := first
  have unseen : ∀ entry ∈ before.map definition.seen?, entry = none := by
    intro entry member
    obtain ⟨other, listed, rfl⟩ := List.mem_map.mp member
    rw [Option.eq_none_iff_forall_ne_some]
    intro text seen
    exact earlier other listed text (seen?_eq_some_iff.mp seen)
  rw [verdict_of_named named, order, List.map_append, List.map_cons,
    seen?_eq_some_iff.mpr unresolved, ensureResolved_of_first unseen]
  rfl

/-- Without its template, a custom deployment is refused before anything is scanned. -/
theorem verdict_of_lacksTemplate (lacking : definition.LacksTemplate) (dynamic : Bool) :
    definition.verdict dynamic = .error (.violation (.null Slot.customDeploymentRef.name)) := by
  obtain ⟨settings, target⟩ := lacking
  have missing : definition.checkTemplate =
      .error (.violation (.null Slot.customDeploymentRef.name)) := by
    rw [checkTemplate, target]
  rw [verdict, scan, missing]
  rfl

/-- Expressions without values are reported before anything else.  Where some scanned field is
one, checking ends with the first of them, whatever else is wrong with the definition.  A custom
deployment without a template is the only definition that is refused for something else. -/
theorem result_validate_unresolved (definition : Definition) {field : ScannedField} {text : String}
    (scanned : field ∈ definition.kind.scanOrder definition.isDynamic)
    (unresolved : definition.Unresolved field text) (environment : Environment) (world : World)
    (cancelAfter : Option Nat) :
    let result := ((definition.validate environment).run world cancelAfter).result
    ∃ first, definition.FirstUnresolved first ∧
      (¬ definition.LacksTemplate →
        ∃ refusal, result = .error (.invalidRequest refusal) ∧
          refusal.message = "Unresolved Expression : [" ++ first ++ "]") ∧
      (definition.LacksTemplate →
        result = .error (.invalidArguments [⟨"customDeploymentRef", "cannot be null"⟩])) := by
  intro result
  have decided : result = definition.verdict definition.isDynamic :=
    definition.result_validate environment world cancelAfter
  obtain ⟨first, isFirst⟩ := exists_firstUnresolved scanned unresolved
  refine ⟨first, isFirst, ?_, ?_⟩
  · intro named
    exact ⟨_, decided.trans (verdict_of_firstUnresolved named isFirst), rfl⟩
  · intro lacking
    exact decided.trans (verdict_of_lacksTemplate lacking _)

/-- A cluster with many faults: it lacks a namespace and a resource group, its release name waits
for input, and its cluster and its subscription are expressions without values. -/
def faultyCluster : Definition where
  details := ⟨"cluster", "Cluster", .empty, false, none⟩
  text
    | .connectorRef => some (.literal "connector")
    | .releaseName => some .pending
    | .cluster => some (.expression "<+cluster>")
    | .subscriptionId => some (.expression "<+subscription>")
    | _ => none
  target := .kubernetesAzure none

/-- Of the faults of the cluster, the first of its two expressions is reported. -/
theorem result_validate_unresolved_faultyCluster :
    let result := ((faultyCluster.validate ⟨"environment", none, .production⟩).run
      ⟨fun _ => .ok none, fun _ => .ok none⟩ none).result
    faultyCluster.Unresolved (.text .subscriptionId) "<+subscription>" ∧
      ∃ refusal, result = .error (.invalidRequest refusal) ∧
        refusal.message = "Unresolved Expression : [<+cluster>]" := by
  intro result
  have unresolved : faultyCluster.Unresolved (.text .subscriptionId) "<+subscription>" :=
    .text rfl
  obtain ⟨first, -, reported, -⟩ := result_validate_unresolved faultyCluster (by decide)
    unresolved ⟨"environment", none, .production⟩ ⟨fun _ => .ok none, fun _ => .ok none⟩ none
  obtain ⟨refusal, refused, -⟩ := reported (by rintro ⟨settings, ⟨⟩⟩)
  refine ⟨unresolved, refusal, refused, ?_⟩
  have evaluated : result = .error (.invalidRequest (.unresolvedExpression "<+cluster>")) := rfl
  cases evaluated.symm.trans refused
  rfl

/-- A custom deployment without a template, whose connector is an expression. -/
def untemplated : Definition where
  details := ⟨"deployment", "Deployment", .empty, false, none⟩
  text
    | .connectorRef => some (.expression "<+connector>")
    | _ => none
  target := .customDeployment none []

/-- The expression is the first one without a value, but it is not what is reported. -/
theorem overlooks_unresolved_untemplated :
    let result := ((untemplated.validate ⟨"environment", none, .production⟩).run
      ⟨fun _ => .ok none, fun _ => .ok none⟩ none).result
    untemplated.FirstUnresolved "<+connector>" ∧
      ∀ refusal, result ≠ .error (.invalidRequest refusal) := by
  intro result
  refine ⟨⟨[], .text .connectorRef, [.template, .version], rfl, .text rfl, nofun⟩, ?_⟩
  have evaluated : result =
      .error (.invalidArguments [⟨"customDeploymentRef", "cannot be null"⟩]) := rfl
  intro refusal refused
  cases evaluated.symm.trans refused

end Definition

end DeployTarget
