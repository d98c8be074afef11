import DeployTarget.Field.Value
import DeployTarget.Kind

/-!
# Failures

Every failure of reading, checking and resolving a definition is a cause, with the
data that the cause needs; its words are in one place.
-/

namespace DeployTarget

/-- What is wrong with a required field. -/
structure Violation where
  field : String
  reason : String
deriving DecidableEq, Repr

namespace Violation

def empty (field : String) : Violation :=
  ⟨field, "cannot be empty"⟩

def null (field : String) : Violation :=
  ⟨field, "cannot be null"⟩

def notProvided (field : String) : Violation :=
  ⟨field, "set as runtime input but no value was provided"⟩

def message (violation : Violation) : String :=
  violation.field ++ ": " ++ violation.reason

end Violation

/-- Why a request cannot be served as it stands. -/
inductive Refusal where
  | missingDefinition
  /-- A field that must have a value is an expression without one. -/
  | unresolvedExpression (text : String)
  /-- Neither of two alternative fields has a value. -/
  | unresolvedExpressions (first second : String)
  | runtimeInput (field : String)
  /-- The attributes of provisioned hosts do not say what names a host. -/
  | hostnameNotMapped
  /-- The rules of one kind are applied to a definition of another. -/
  | otherKind (expected actual : Kind)
  | stated (text : String)
deriving DecidableEq, Repr

def hostnameAttribute : String :=
  "hostname"

def Refusal.message : Refusal → String
  | .missingDefinition => "Infrastructure definition can't be null or empty"
  | .unresolvedExpression text => "Unresolved Expression : [" ++ text ++ "]"
  | .unresolvedExpressions first second =>
      "Unresolved Expressions : [" ++ first ++ "] , [" ++ second ++ "]"
  | .runtimeInput field => (Violation.notProvided field).message
  | .hostnameNotMapped =>
      "[" ++ hostnameAttribute ++ "] property is mandatory for getting host names"
  | .otherKind expected actual =>
      "expected " ++ expected.tag ++ " definition, got " ++ actual.tag
  | .stated text => text

/-- The shapes of plain data. -/
inductive Shape where
  | null
  | boolean
  | number
  | text
  | list
  | object
deriving DecidableEq, Repr

def Shape.ofJson : Json → Shape
  | .null => .null
  | .bool _ => .boolean
  | .number _ => .number
  | .string _ => .text
  | .array _ => .list
  | .object _ => .object

def Shape.message : Shape → String
  | .null => "null"
  | .boolean => "a boolean"
  | .number => "a number"
  | .text => "a string"
  | .list => "a list"
  | .object => "an object"

/-- Why an expression has no usable value. -/
inductive ResolutionFault where
  | noValue
  | wrongType (mismatch : Mismatch)
  | notHostList (found : Shape)
  /-- A reference is opened and not closed; the offset counts bytes of UTF-8. -/
  | unclosed (offset : Nat)
deriving Repr

def ResolutionFault.message : ResolutionFault → String
  | .noValue => "expression could not be resolved"
  | .wrongType mismatch => "value has the wrong type: " ++ mismatch.message
  | .notHostList found => "expected a list of host objects, got " ++ found.message
  | .unclosed offset =>
      "unclosed expression at position " ++ String.ofList (Nat.toDigits 10 offset)

/-- Why a document is no request or no definition. -/
inductive ParseFault where
  /-- The text is no document, or the document is no request. -/
  | unreadable
  | missingKind
  | badBody (kind : Kind)
deriving DecidableEq, Repr

def ParseFault.message : ParseFault → String
  | .unreadable => "YAML parse error"
  | .missingKind => "infrastructure definition has no 'type'"
  | .badBody kind => kind.tag ++ " definition:"

/-- Why a file cannot be read. -/
inductive FileFault where
  | missing
  | isDirectory
  /-- The path goes on behind a file. -/
  | notDirectory
  | forbidden
  | notText
  | other (text : String)
deriving DecidableEq, Repr

def FileFault.message : FileFault → String
  | .missing => "No such file or directory (os error 2)"
  | .isDirectory => "Is a directory (os error 21)"
  | .notDirectory => "Not a directory (os error 20)"
  | .forbidden => "Permission denied (os error 13)"
  | .notText => "stream did not contain valid UTF-8"
  | .other text => text

/-- A failure. -/
inductive Error where
  | unknownKind (tag : String)
  | invalidArguments (violations : List Violation)
  | invalidRequest (refusal : Refusal)
  | resolution (expression : String) (fault : ResolutionFault)
  | cancelled
  | parse (fault : ParseFault)
  | unreadableFile (path : String) (fault : FileFault)
deriving Repr

namespace Error

def violation (violation : Violation) : Error :=
  .invalidArguments [violation]

def message : Error → String
  | .unknownKind tag => "Unknown Infrastructure Kind : [" ++ tag ++ "]"
  | .invalidArguments violations => "; ".intercalate (violations.map Violation.message)
  | .invalidRequest refusal => refusal.message
  | .resolution expression fault =>
      "Unresolved Expression : [" ++ expression ++ "] (" ++ fault.message ++ ")"
  | .cancelled => "infrastructure resolution cancelled"
  | .parse fault => "parse error: " ++ fault.message
  | .unreadableFile path fault => "cannot read " ++ path ++ ": " ++ fault.message

end Error

end DeployTarget
