import DeployTarget.Request
import DeployTarget.Yaml.Reader

/-!
# Documents in text form

Definitions and requests are written in YAML, of which JSON is a part.  A text that is
no document is told apart from a document that is no definition.
-/

namespace DeployTarget

def Definition.ofText (text : String) : Except Error Definition :=
  match Yaml.Node.ofText? text >>= Yaml.Value.ofNode? with
  | some value => Definition.ofValue value
  | none => .error (.parse .unreadable)

def Request.ofText (text : String) : Except Error Request :=
  match Yaml.Node.ofText? text >>= Request.read? with
  | some request => .ok request
  | none => .error (.parse .unreadable)

def Request.ofValue (value : Yaml.Value) : Except Error Request :=
  match Request.read? value with
  | some request => .ok request
  | none => .error (.parse .unreadable)

end DeployTarget
