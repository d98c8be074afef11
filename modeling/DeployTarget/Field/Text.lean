import DeployTarget.Text.Blank

/-!
# Expressions and runtime input

A text is an expression if it holds a reference: `<+`, at least one character other
than the angle brackets, and `>`.  It is runtime input if, without the blanks around
it, it is the marker `<+input>` followed by nothing but modifier calls such as
`.default(blue)`, whose arguments hold no parentheses.
-/

namespace DeployTarget.Field

/-- The marker that defers a value to the run of a pipeline. -/
def inputMarker : String :=
  "<+input>"

/-- The names of the calls that may follow the marker. -/
def modifiers : List String :=
  ["default", "allowedValues", "regex", "executionInput"]

/-- A character that cannot stand inside a reference. -/
def isAngle (c : Char) : Bool :=
  c == '<' || c == '>'

/-- Whether characters other than angle brackets, at least one, come before a `>`. -/
def closesReference (cs : List Char) : Bool :=
  cs.takeWhile (!isAngle ·) != [] && (cs.dropWhile (!isAngle ·)).head? == some '>'

def hasReference : List Char → Bool
  | '<' :: '+' :: rest => closesReference rest || hasReference ('+' :: rest)
  | _ :: rest => hasReference rest
  | [] => false

def isExpressionText (text : String) : Bool :=
  hasReference text.toList

/-- A character that cannot stand inside the argument of a modifier. -/
def isParenthesis (c : Char) : Bool :=
  c == '(' || c == ')'

/-- What follows a call of the named modifier at the start of the characters. -/
def dropCall? (name : String) (cs : List Char) : Option (List Char) := do
  let argument ← ('.' :: name.toList ++ ['(']).isPrefixOf? cs
  match argument.dropWhile (!isParenthesis ·) with
  | ')' :: rest => some rest
  | _ => none

/-- Whether the characters are modifier calls only; `fuel` bounds their number. -/
def areModifierCalls : Nat → List Char → Bool
  | _, [] => true
  | 0, _ => false
  | fuel + 1, cs =>
      match modifiers.findSome? (dropCall? · cs) with
      | some rest => areModifierCalls fuel rest
      | none => false

/-- Whether a text is the runtime input marker, possibly with modifier calls. -/
def isRuntimeInputText (text : String) : Bool :=
  match inputMarker.toList.isPrefixOf? (Text.trimmed text.toList) with
  | some rest => areModifierCalls rest.length rest
  | none => false

end DeployTarget.Field
