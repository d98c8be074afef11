import DeployTarget.Proofs.Verdict

/-!
# What counts as present

A field is present if it has a value that is neither blank nor the runtime input marker, or an
expression that is no runtime input.  There are two tests for that: required fields are refused with
a reason if they are not present, and the hosts and the connector of a pool are only looked at.  The
tests agree on every field.  Where a value is demanded, an expression is refused unless fields come
from a provisioner, and that is the only difference that the demand makes.
-/

namespace DeployTarget

namespace Validation

variable {α : Type} [FieldValue α] {dynamic : Bool} {field : Option (Field α)} {name : String}
  {presence : Presence}

/-- Says that a field has a value that is neither blank nor the marker. -/
def HasValue (field : Option (Field α)) : Prop :=
  ∃ value, field.bind Field.value? = some value ∧
    FieldValue.isInputMarker value = false ∧ FieldValue.isBlank value = false

/-- Says that a field is an expression without a value whose text is no runtime input. -/
def HasExpression (field : Option (Field α)) : Prop :=
  ∃ text, field = some (.expression text) ∧ Field.isRuntimeInputText text = false

/-! ## Each test for itself -/

/-- A field passes for one with a value or an expression if it has one of them. -/
theorem hasValueOrExpression_iff :
    hasValueOrExpression field = true ↔ HasValue field ∨ HasExpression field := by
  rcases field with - | (value | - | text | ⟨text, value⟩)
  · simp [hasValueOrExpression, HasValue, HasExpression]
  · simp [hasValueOrExpression, HasValue, HasExpression, Field.value?, and_comm]
  · simp [hasValueOrExpression, HasValue, HasExpression, Field.value?]
  · simp [hasValueOrExpression, HasValue, HasExpression, Field.value?]
  · simp [hasValueOrExpression, HasValue, HasExpression, Field.value?, and_comm]

/-- A required field with a value is accepted unless the value is the marker or blank. -/
theorem violation?_of_value {value : α} (valued : field.bind Field.value? = some value) :
    violation? dynamic field name presence = none ↔ HasValue field := by
  have proper : HasValue field ↔
      FieldValue.isInputMarker value = false ∧ FieldValue.isBlank value = false := by
    simp [HasValue, valued]
  rw [proper]
  simp only [violation?, valued]
  cases FieldValue.isInputMarker value <;> cases FieldValue.isBlank value <;> simp

/-- A required field is accepted if it has a value, or an expression where one will do. -/
theorem violation?_eq_none_iff :
    violation? dynamic field name presence = none ↔
      HasValue field ∨
        (dynamic = true ∨ presence = .valueOrExpression) ∧ HasExpression field := by
  rcases field with - | (value | - | text | ⟨text, value⟩)
  · simp [violation?, HasValue, HasExpression]
  · rw [violation?_of_value rfl]
    simp [HasExpression]
  · simp [violation?, HasValue, HasExpression, Field.value?]
  · cases input : Field.isRuntimeInputText text <;> cases presence <;> cases dynamic <;>
      simp [violation?, HasValue, HasExpression, Field.value?, input]
  · rw [violation?_of_value rfl]
    simp [HasExpression]

/-! ## What is demanded -/

omit [FieldValue α] in
theorem not_hasExpression_of_resolved (resolved : field.bind Field.unresolved? = none) :
    ¬ HasExpression field := by
  rintro ⟨text, rfl, -⟩
  cases resolved

/-- Only expressions are judged by what is demanded and by where values come from. -/
theorem violation?_eq_of_not_hasExpression (plain : ¬ HasExpression field)
    (dynamic other : Bool) (presence demanded : Presence) :
    violation? dynamic field name presence = violation? other field name demanded := by
  rcases field with - | (value | - | text | ⟨text, value⟩)
  · rfl
  · rfl
  · rfl
  · -- An expression that is left is runtime input, which is refused whatever is demanded.
    have input : Field.isRuntimeInputText text = true := by
      simpa [HasExpression] using plain
    simp [violation?, Field.value?, input]
  · rfl

/-- Where fields come from a provisioner, it does not matter what is demanded. -/
theorem violation?_provisioned (presence demanded : Presence) :
    violation? true field name presence = violation? true field name demanded := by
  by_cases expressed : HasExpression field
  · have accepted (presence : Presence) : violation? true field name presence = none :=
      violation?_eq_none_iff.mpr (.inr ⟨.inl rfl, expressed⟩)
    rw [accepted presence, accepted demanded]
  · exact violation?_eq_of_not_hasExpression expressed true true presence demanded

/-! ## Both tests -/

/-- A field passes for one with a value or an expression if it is accepted where one is required. -/
theorem require_valueOrExpression_eq_ok :
    require dynamic field name .valueOrExpression = .ok () ↔
      hasValueOrExpression field = true := by
  rw [require_eq_ok, violation?_eq_none_iff, hasValueOrExpression_iff]
  simp

/-- Without a provisioner, an expression is refused as empty if a value is demanded. -/
theorem require_of_hasExpression (expressed : HasExpression field) :
    require false field name .value = .error (.violation (.empty name)) ∧
      require false field name .valueOrExpression = .ok () := by
  constructor
  · obtain ⟨text, rfl, noInput⟩ := expressed
    simp [require, violation?, Field.value?, noInput]
  · rw [require_valueOrExpression_eq_ok, hasValueOrExpression_iff]
    exact .inr expressed

/-- Without a provisioner, what is demanded matters for expressions and for nothing else. -/
theorem require_value_ne_iff :
    require false field name .value ≠ require false field name .valueOrExpression ↔
      HasExpression field := by
  constructor
  · intro differ
    by_cases expressed : HasExpression field
    · exact expressed
    · have alike : violation? false field name .value =
          violation? false field name .valueOrExpression :=
        violation?_eq_of_not_hasExpression expressed _ _ _ _
      exact absurd (by rw [require, require, alike]) differ
  · intro expressed same
    rw [(require_of_hasExpression expressed).1, (require_of_hasExpression expressed).2] at same
    cases same

/-- The two tests agree.  What passes where a value is demanded passes where an expression will do.
The two demands end alike where fields come from a provisioner, and elsewhere they differ exactly on
the expressions without a value that are no runtime input, which are refused as empty if a value is
demanded. -/
theorem require_presence (dynamic : Bool) (field : Option (Field α)) (name : String) :
    (hasValueOrExpression field = true ↔
      require dynamic field name .valueOrExpression = .ok ()) ∧
    (require dynamic field name .value = .ok () →
      require dynamic field name .valueOrExpression = .ok ()) ∧
    require true field name .value = require true field name .valueOrExpression ∧
    (require false field name .value ≠ require false field name .valueOrExpression ↔
      ∃ text, field = some (.expression text) ∧ Field.isRuntimeInputText text = false) ∧
    ∀ text, field = some (.expression text) → Field.isRuntimeInputText text = false →
      require false field name .value = .error (.violation (.empty name)) ∧
        require false field name .valueOrExpression = .ok () := by
  refine ⟨require_valueOrExpression_eq_ok.symm, ?_, ?_, require_value_ne_iff, ?_⟩
  · rw [require_valueOrExpression_eq_ok, hasValueOrExpression_iff, require_eq_ok,
      violation?_eq_none_iff]
    exact Or.imp_right And.right
  · rw [require, require, violation?_provisioned .value .valueOrExpression]
  · intro text same noInput
    exact require_of_hasExpression ⟨text, same, noInput⟩

/-- Blank hosts are no hosts, and a value that was attached to an expression is judged like one that
was written. -/
example :
    hasValueOrExpression (some (.literal (HostList.joined " , "))) = false ∧
      hasValueOrExpression (some (.resolved "<+region>" " <+input> ")) = false ∧
      require true (some (.resolved "<+region>" " <+input> ")) "region" .value =
        .error (.violation (.notProvided "region")) :=
  ⟨by decide, by decide, rfl⟩

end Validation

namespace Definition

open Validation

/-- A pool that is not provisioned passes if its hosts or its connector would pass as a required
field of any other kind. -/
theorem checkHosts_static_eq_ok_iff {definition : Definition} {hosts : Option (Field HostList)}
    {attributes : Option (Field Tags)} :
    definition.checkHosts false hosts attributes = .ok () ↔
      require false hosts Slot.hosts.name .valueOrExpression = .ok () ∨
        require false (definition.text .connectorRef) Attribute.connectorRef.name
          .valueOrExpression = .ok () := by
  rw [require_valueOrExpression_eq_ok, require_valueOrExpression_eq_ok, ← Bool.or_eq_true]
  cases present : hasValueOrExpression hosts ||
      hasValueOrExpression (definition.text .connectorRef) <;>
    simp [checkHosts, present]

end Definition

end DeployTarget
