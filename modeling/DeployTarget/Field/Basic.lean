import DeployTarget.Field.Value

/-!
# Fields

A field of a definition is in one of four states: it carries a literal value, it
waits for runtime input, it carries an expression without a value, or an expression
to which a value has been attached.
-/

namespace DeployTarget

/-- One attribute of a definition. -/
inductive Field (α : Type) where
  | literal (value : α)
  | pending
  | expression (text : String)
  | resolved (text : String) (value : α)
deriving DecidableEq, Repr

namespace Field

variable {α : Type}

def value? : Field α → Option α
  | .literal value => some value
  | .resolved _ value => some value
  | .pending => none
  | .expression _ => none

/-- Whether the field is an expression, with or without a value. -/
def isExpression : Field α → Bool
  | .expression _ => true
  | .resolved _ _ => true
  | .literal _ => false
  | .pending => false

def unresolved? : Field α → Option String
  | .expression text => some text
  | _ => none

def isPending : Field α → Bool
  | .pending => true
  | _ => false

def expressionText? : Field α → Option String
  | .expression text => some text
  | .resolved text _ => some text
  | .literal _ => none
  | .pending => none

/-- Attaches a value to an expression without one; other fields stay as they are. -/
def attach (field : Field α) (value : α) : Field α :=
  match field with
  | .expression text => .resolved text value
  | other => other

/-- The value of a text field, or else its expression. -/
def valueOrExpression? : Field String → Option String
  | .literal value => some value
  | .resolved _ value => some value
  | .expression text => some text
  | .pending => none

/-- The text that stands for a text field: pending input shows as the marker. -/
def finalText (field : Field String) : String :=
  field.valueOrExpression?.getD inputMarker

variable [FieldValue α]

/-- Reads a field from plain data: runtime input first, then expressions, and any
other value as a literal of the field's type. -/
def ofJson (raw : Json) : Except Mismatch (Field α) :=
  match raw with
  | .string text =>
      if isRuntimeInputText text then .ok .pending
      else if isExpressionText text then .ok (.expression text)
      else .literal <$> FieldValue.ofJson raw
  | _ => .literal <$> FieldValue.ofJson raw

/-- Writes a field as plain data: its value, its expression, or the marker. -/
def toJson : Field α → Json
  | .literal value => FieldValue.toJson value
  | .resolved _ value => FieldValue.toJson value
  | .expression text => .string text
  | .pending => .string inputMarker

/-- The plain data of an optional field: null where it is absent. -/
def optionToJson : Option (Field α) → Json
  | some field => field.toJson
  | none => .null

end Field

end DeployTarget
