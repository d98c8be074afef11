import DeployTarget.Error
import DeployTarget.Expression.Substitution
import DeployTarget.Json.Path
import DeployTarget.Json.Printer

/-!
# Expressions over the output of a provisioner

A reference names a path into the output document of a provisioner.  An expression
that is one reference has the value at its path; any other text has its references
replaced by the texts of their values.
-/

namespace DeployTarget

/-- The output of a provisioner. -/
structure Outputs where
  document : Json

namespace Outputs

def root : String :=
  "provisioner"

/-- The value of a reference, by the characters between its marks: the document
itself, or what is not null at a path into it. -/
def reference? (outputs : Outputs) (inner : List Char) : Option Json := do
  match ← root.toList.isPrefixOf? (Text.trimmed inner) with
  | [] => some outputs.document
  | '.' :: path =>
      let value ← outputs.document.find? (String.ofList path)
      if value.isNull then none else some value
  | _ => none

/-- The characters between the marks of a text that is one reference. -/
def whole? (text : List Char) : Option (List Char) := do
  let opened ← ['<', '+'].isPrefixOf? (Text.trimmed text)
  let inner ← ['>'].isSuffixOf? opened
  if '<' ∈ inner ∨ '>' ∈ inner then none else some inner

def lookup (outputs : Outputs) (expression : String) : Except Error (Option Json) :=
  match whole? expression.toList with
  | some inner => .ok (outputs.reference? inner)
  | none =>
      let text? (inner : List Char) : Option (List Char) :=
        (outputs.reference? inner).map fun value => value.rendered.toList
      match Substitution.substitute text? expression.toList with
      | .ok text => .ok (text.map fun characters => .string (String.ofList characters))
      | .error offset => .error (.resolution expression (.unclosed offset))

end Outputs

end DeployTarget
