import DeployTarget.Proofs.Locality
import DeployTarget.Proofs.Presence

/-!
# Checks that a provisioner relaxes

The flag that says that the fields of a definition come from a provisioner matters to the
checks in two places: some attributes need not be resolved yet, and an expression will do
where a value is demanded.  Both concern expressions without values alone.  A definition that
passes its checks without the flag therefore passes them with it, and where no attribute is an
unresolved expression the flag decides nothing.  Host pools are left out: provisioned hosts
have rules of their own.
-/

namespace DeployTarget

namespace Kind

theorem mem_attributes_of_scannedWhenStatic (kind : Kind) :
    ∀ name ∈ kind.scannedWhenStatic, name ∈ kind.attributes := by
  cases kind <;> decide

end Kind

namespace Validation

variable {α : Type} [FieldValue α] {field : Option (Field α)} {name : String}
  {presence : Presence}

/-- What is present without a provisioner is present with one. -/
theorem violation?_relaxed (present : violation? false field name presence = none) :
    violation? true field name presence = none := by
  rw [violation?_eq_none_iff] at present ⊢
  exact present.imp_right fun demanded => ⟨.inl rfl, demanded.2⟩

/-- Only an expression without a value is judged by where values come from. -/
theorem violation?_eq_of_resolved (resolved : field.bind Field.unresolved? = none)
    (dynamic : Bool) :
    violation? dynamic field name presence = violation? false field name presence :=
  violation?_eq_of_not_hasExpression (not_hasExpression_of_resolved resolved) _ _ _ _

end Validation

namespace Definition

open Validation

/-- The definition with the flag that says whether its fields come from a provisioner. -/
def flagged (definition : Definition) (flag : Bool) : Definition :=
  { definition with details := { definition.details with provisioned := flag } }

variable {definition : Definition}

theorem isDynamic_flagged (flag : Bool) :
    (definition.flagged flag).isDynamic = (definition.kind.supportsProvisioning && flag) :=
  rfl

/-- The flag matters to the checks only by whether the definition is dynamic. -/
theorem verdict_flagged (flag dynamic : Bool) :
    (definition.flagged flag).verdict dynamic = definition.verdict dynamic :=
  rfl

/-- Only the rules of pools depend on where the hosts come from. -/
theorem checkTarget_of_ne_pdc (ordinary : definition.kind ≠ .pdc) (dynamic : Bool) :
    definition.checkTarget dynamic = definition.checkTarget false := by
  obtain ⟨details, text, target⟩ := definition
  cases target with
  | pdc hosts filter attributes => exact absurd rfl ordinary
  | customDeployment reference settings => cases reference <;> rfl
  | _ => rfl

/-- A definition that passes without a provisioner passes with one. -/
theorem Passes.relaxed (ordinary : definition.kind ≠ .pdc) (passes : definition.Passes false) :
    definition.Passes true where
  template := passes.template
  scanned := passes.scanned
  texts := passes.texts
  scannedWhenStatic static := by cases static
  alternatives := passes.alternatives
  requirements requirement member := violation?_relaxed (passes.requirements requirement member)
  target := (checkTarget_of_ne_pdc ordinary true).trans passes.target

/-- Where no attribute is an unresolved expression, a provisioner changes no verdict. -/
theorem verdict_of_resolved (ordinary : definition.kind ≠ .pdc)
    (resolved : ∀ name ∈ definition.kind.attributes, definition.unresolved? name = none)
    (dynamic : Bool) : definition.verdict dynamic = definition.verdict false := by
  have scanned (dynamic : Bool) : ensureProvisionedResolved dynamic
      (definition.kind.scannedWhenStatic.map definition.unresolved?) = .ok () := by
    rw [ensureProvisionedResolved_eq_ok]
    intro _ text member
    obtain ⟨name, listed, rfl⟩ := List.mem_map.mp member
    exact resolved name (definition.kind.mem_attributes_of_scannedWhenStatic name listed)
  have required : definition.kind.requirements.forM (definition.checkRequirement dynamic) =
      definition.kind.requirements.forM (definition.checkRequirement false) := by
    apply forM_congr
    intro requirement member
    have listed := definition.kind.mem_attributes_of_requirement requirement member
    rw [checkRequirement, checkRequirement, require, require,
      violation?_eq_of_resolved (resolved _ listed)]
  simp only [verdict, scan, scanned, required, checkTarget_of_ne_pdc ordinary dynamic]

/-- The flag relaxes the checks and nothing else: a definition of any kind but a pool that
passes without it passes with it, and where none of its attributes is an expression without a
value, both ways of checking end alike. -/
theorem result_validate_flagged (definition : Definition) (ordinary : definition.kind ≠ .pdc)
    (environment : Environment) (world : World) (cancelAfter : Option Nat) :
    let result (flag : Bool) :=
      (((definition.flagged flag).validate environment).run world cancelAfter).result
    (result false = .ok () → result true = .ok ()) ∧
      ((∀ name ∈ definition.kind.attributes, definition.unresolved? name = none) →
        result true = result false) := by
  intro result
  have decided (flag : Bool) :
      result flag = definition.verdict (definition.kind.supportsProvisioning && flag) := by
    have checked := (definition.flagged flag).result_validate environment world cancelAfter
    rwa [verdict_flagged, isDynamic_flagged] at checked
  rw [decided, decided, Bool.and_true, Bool.and_false]
  constructor
  · intro passed
    have passes := verdict_eq_ok_iff.mp passed
    cases definition.kind.supportsProvisioning with
    | false => exact passed
    | true => exact verdict_eq_ok_iff.mpr (passes.relaxed ordinary)
  · intro resolved
    exact verdict_of_resolved ordinary resolved _

/-- A function in the cloud, with or without a region. -/
def functionIn (region : Option (Field String)) : Definition where
  details := ⟨"function", "Function", .empty, false, none⟩
  text
    | .region => region
    | _ => none
  target := .awsLambda

/-- A function in a region passes with the flag too, and one without a region is refused in
both ways.  Where the region is an expression, the flag decides. -/
theorem result_validate_flagged_functionIn :
    let environment : Environment := ⟨"environment", none, .production⟩
    let world : World := ⟨fun _ => .ok none, fun _ => .ok none⟩
    let result (region : Option (Field String)) (flag : Bool) :=
      ((((functionIn region).flagged flag).validate environment).run world none).result
    result (some (.literal "north")) true = .ok () ∧
      result none true = .error (.violation (.empty "region")) ∧
      result (some (.expression "<+region>")) false =
        .error (.invalidRequest (.unresolvedExpression "<+region>")) ∧
      result (some (.expression "<+region>")) true = .ok () := by
  intro environment world result
  have located := result_validate_flagged (functionIn (some (.literal "north"))) (by decide)
    environment world none
  have missing := result_validate_flagged (functionIn none) (by decide) environment world none
  refine ⟨located.1 rfl, (missing.2 ?_).trans rfl, rfl, rfl⟩
  decide

end Definition

end DeployTarget
