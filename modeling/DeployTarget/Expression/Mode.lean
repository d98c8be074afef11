import DeployTarget.Field.Basic
import DeployTarget.Program

/-!
# Resolving fields

A field that is an expression without a value is resolved by asking for its value.
The mode says what becomes of a field whose expression has none.
-/

namespace DeployTarget

/-- What becomes of an expression without a value. -/
inductive Mode where
  /-- It is a failure. -/
  | strict
  /-- The field keeps the expression. -/
  | keep
  /-- The field is left out. -/
  | drop
deriving DecidableEq, Repr

def Mode.name : Mode → String
  | .strict => "THROW_EXCEPTION_IF_UNRESOLVED"
  | .keep => "RETURN_ORIGINAL_EXPRESSION_IF_UNRESOLVED"
  | .drop => "RETURN_NULL_IF_UNRESOLVED"

namespace Field

variable {α : Type} [FieldValue α]

/-- The field of an expression whose value has been asked for; null is no value. -/
def ofAnswer (mode : Mode) (expression : String) (answer : Option Json) :
    Except Error (Option (Field α)) :=
  match answer.filter (!·.isNull) with
  | some raw =>
      match readSupplied α raw with
      | .ok value => .ok (some (.resolved expression value))
      | .error mismatch => .error (.resolution expression (.wrongType mismatch))
  | none =>
      match mode with
      | .strict => .error (.resolution expression .noValue)
      | .keep => .ok (some (.expression expression))
      | .drop => .ok none

/-- Resolves a field: only an expression without a value is asked for. -/
def resolve (mode : Mode) : Field α → Program (Option (Field α))
  | .expression text => do
      let answer ← Program.ask text
      Program.ofExcept (ofAnswer mode text answer)
  | other => pure (some other)

def evaluate (mode : Mode) (field : Field α) : Program (Option α) := do
  let resolved ← field.resolve mode
  return resolved.bind value?

end Field

def Program.hostObjects (expression : String) : Program (List Json) := do
  match ← ask expression with
  | some (.array objects) => return objects
  | some other => fail (.resolution expression (.notHostList (Shape.ofJson other)))
  | none => fail (.resolution expression .noValue)

end DeployTarget
