import DeployTarget.Error
import DeployTarget.Expression.Outputs
import DeployTarget.Field.Text
import DeployTarget.OrderedMap

/-!
# Provisioned host pools

The hosts of a provisioned pool are objects in the output of a provisioner.  A mapping
from attribute names to paths says what is read from each object; the attribute
`hostname` names the host, and an object without one is skipped.
-/

namespace DeployTarget.HostPool

/-- The expression that stands for the list of host objects: a bare path is one into
the output of the provisioner. -/
def arrayExpression (path : String) : String :=
  if Field.isExpressionText path then path
  else "<+" ++ Outputs.root ++ "." ++ Text.trim path ++ ">"

/-- The name of a host object in the paths of attributes. -/
def root : String :=
  "host"

/-- The path behind the name of the host object, where it stands in front. -/
def pathOfReference (inner : List Char) : List Char :=
  match root.toList.isPrefixOf? inner with
  | some [] => []
  | some ('.' :: rest) => rest.dropWhile (· == '.')
  | _ => inner

/-- The path of an attribute inside a host object, written bare or as a reference. -/
def attributePath (written : String) : List Char :=
  let bare := Text.trimmed written.toList
  match ['<', '+'].isPrefixOf? bare >>= (['>'].isSuffixOf? ·) with
  | some inner => pathOfReference (Text.trimmed inner)
  | none => bare

/-- The text of an attribute of a host object; null is no attribute. -/
def attribute? (object : Json) (written : String) : Option String := do
  let value ← object.find? (String.ofList (attributePath written))
  if value.isNull then none else some value.rendered

def attributes (mapping : Tags) (object : Json) : Tags :=
  OrderedMap.ofList <| mapping.entries.filterMap fun entry => do
    let text ← attribute? object entry.2
    return (entry.1, text)

/-- A host with its attributes. -/
structure Host where
  name : String
  /-- The attributes, the name among them. -/
  attributes : Tags
deriving DecidableEq

def host? (mapping : Tags) (object : Json) : Option Host := do
  let attributes := attributes mapping object
  let name ← attributes.get? hostnameAttribute
  if name = "" then none else some ⟨name, attributes⟩

end DeployTarget.HostPool
