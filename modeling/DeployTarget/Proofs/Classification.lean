import DeployTarget.Field.Basic

/-!
# How plain data is read as a field

A text that is the runtime input marker makes a field wait, a text with a reference makes it an
expression, and whatever else is read must be a value of the field's type.  A field with both an
expression and a value is never read: the value is attached later.
-/

namespace DeployTarget

namespace Field

variable {α : Type} [FieldValue α]

/-- The ways in which plain data is read as a field. -/
inductive IsReadFrom (raw : Json) : Field α → Prop
  | pending {text : String} (written : raw = .string text)
      (input : isRuntimeInputText text = true) : IsReadFrom raw .pending
  | expression {text : String} (written : raw = .string text)
      (noInput : isRuntimeInputText text = false) (holds : isExpressionText text = true) :
      IsReadFrom raw (.expression text)
  | literal {value : α}
      (plain : ∀ text, raw = .string text →
        isRuntimeInputText text = false ∧ isExpressionText text = false)
      (fits : FieldValue.ofJson raw = .ok value) : IsReadFrom raw (.literal value)

/-- A literal is read from the data of its value. -/
private theorem isReadFrom_of_map_literal {raw : Json} {field : Field α}
    (plain : ∀ text, raw = .string text →
      isRuntimeInputText text = false ∧ isExpressionText text = false)
    (read : literal <$> FieldValue.ofJson raw = Except.ok field) : field.IsReadFrom raw := by
  cases fits : (FieldValue.ofJson raw : Except Mismatch α) with
  | error mismatch =>
      rw [fits] at read
      cases read
  | ok value =>
      rw [fits] at read
      cases read
      exact .literal plain fits

/-- Reading plain data yields the fields that are read from it. -/
theorem ofJson_eq_ok_iff {raw : Json} {field : Field α} :
    ofJson raw = .ok field ↔ field.IsReadFrom raw := by
  constructor
  · intro read
    unfold ofJson at read
    split at read
    next text =>
      cases input : isRuntimeInputText text with
      | true =>
          rw [if_pos input] at read
          cases read
          exact .pending rfl input
      | false =>
          rw [if_neg (by simp [input])] at read
          cases holds : isExpressionText text with
          | true =>
              rw [if_pos holds] at read
              cases read
              exact .expression rfl input holds
          | false =>
              rw [if_neg (by simp [holds])] at read
              refine isReadFrom_of_map_literal (fun other same => ?_) read
              cases same
              exact ⟨input, holds⟩
    next noText => exact isReadFrom_of_map_literal (fun text same => absurd same (noText text)) read
  · intro reads
    cases reads with
    | pending written input => rw [written, ofJson, if_pos input]
    | expression written noInput holds =>
        rw [written, ofJson, if_neg (by simp [noInput]), if_pos holds]
    | literal plain fits =>
        cases raw with
        | string text =>
            obtain ⟨noInput, noExpression⟩ := plain text rfl
            rw [ofJson, if_neg (by simp [noInput]), if_neg (by simp [noExpression]), fits]
            rfl
        | null | bool | number | array | object =>
            rw [ofJson, fits]
            · rfl
            · exact nofun

end Field

end DeployTarget
