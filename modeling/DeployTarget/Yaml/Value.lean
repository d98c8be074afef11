import DeployTarget.Yaml.Scalar

/-!
# Values of a document

A value is a scalar, a sequence, a mapping or a value behind a tag of the document's
own.  Unlike plain data a mapping may have any value as a key, and a float may be
infinite or no number.
-/

namespace DeployTarget.Yaml

/-- A value of a document. -/
inductive Value where
  | scalar (value : Scalar)
  | sequence (items : List Value)
  | mapping (entries : List (Value × Value))
  | tagged (tag : String) (value : Value)
deriving Inhabited, Repr

namespace Value

/-- The null value. -/
def null : Value :=
  .scalar .null

def text (value : String) : Value :=
  .scalar (.text value)

mutual

/-- Whether two values are the same key; the entries of a mapping may come in any
order. -/
def same : Value → Value → Bool
  | .scalar first, .scalar second => first.same second
  | .sequence first, .sequence second => sameItems first second
  | .mapping first, .mapping second =>
      first.length == second.length && entriesWithin first second
  | .tagged tag first, .tagged other second => tag == other && first.same second
  | _, _ => false

/-- Whether the items of two sequences are the same, in order. -/
def sameItems : List Value → List Value → Bool
  | [], [] => true
  | first :: rest, second :: others => first.same second && sameItems rest others
  | _, _ => false

/-- Whether every entry of the first mapping is one of the second. -/
def entriesWithin : List (Value × Value) → List (Value × Value) → Bool
  | [], _ => true
  | (key, value) :: rest, others =>
      (others.any fun other => key.same other.1 && value.same other.2) &&
        entriesWithin rest others

end

mutual

def hasTag : Value → Bool
  | .scalar _ => false
  | .sequence items => anyTagged items
  | .mapping entries => anyEntryTagged entries
  | .tagged _ _ => true

def anyTagged : List Value → Bool
  | [] => false
  | item :: rest => item.hasTag || anyTagged rest

def anyEntryTagged : List (Value × Value) → Bool
  | [] => false
  | (key, value) :: rest => key.hasTag || value.hasTag || anyEntryTagged rest

end

def untagged : Value → Value
  | .tagged _ value => value
  | value => value

def text? (value : Value) : Option String :=
  match value.untagged with
  | .scalar (.text text) => some text
  | _ => none

/-- The value written for a text in a mapping, with or without a tag. -/
def get? (name : String) (value : Value) : Option Value :=
  match value.untagged with
  | .mapping entries =>
      (entries.find? fun entry => entry.1.same (.text name)).map Prod.snd
  | _ => none

/-- The entries with their keys as texts, where all keys are texts. -/
def named? (entries : List (Value × Value)) : Option (List (String × Value)) :=
  entries.mapM fun entry => do
    let name ← entry.1.text?
    return (name, entry.2)

mutual

/-- The value as plain data, where it has no tags and all keys are texts. -/
def toJson? : Value → Option Json
  | .scalar value => some value.toJson
  | .sequence items => .array <$> itemsToJson? items
  | .mapping entries => .object <$> entriesToJson? entries
  | .tagged _ _ => none

def itemsToJson? : List Value → Option (List Json)
  | [] => some []
  | item :: rest => do
      let item ← item.toJson?
      let rest ← itemsToJson? rest
      return item :: rest

def entriesToJson? : List (Value × Value) → Option (List (String × Json))
  | [] => some []
  | (key, value) :: rest => do
      let name ← key.text?
      let value ← value.toJson?
      let rest ← entriesToJson? rest
      return (name, value) :: rest

end

mutual

def ofJson : Json → Value
  | .null => null
  | .bool value => .scalar (.bool value)
  | .number value => .scalar (.number value)
  | .string value => text value
  | .array items => .sequence (itemsOfJson items)
  | .object entries => .mapping (entriesOfJson entries)

def itemsOfJson : List Json → List Value
  | [] => []
  | item :: rest => ofJson item :: itemsOfJson rest

def entriesOfJson : List (String × Json) → List (Value × Value)
  | [] => []
  | (key, value) :: rest => (text key, ofJson value) :: entriesOfJson rest

end

end Value

end DeployTarget.Yaml
