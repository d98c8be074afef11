import DeployTarget.Source
import DeployTarget.Yaml.Node

/-!
# Reading the tree of a document

A node is read as a value, as plain data, or as a record of texts.  What a scalar stands
for is told by its tag, or by its text if it was written plain.  A record of texts takes
every scalar for a text; there only an empty plain scalar is an empty collection.
-/

namespace DeployTarget.Yaml

def tagStart : String :=
  "tag:yaml.org,2002:"

def Scalar.ofTagged? (tag text : String) : Option Scalar :=
  if tag = tagStart ++ "bool" then .bool <$> flag? text
  else if tag = tagStart ++ "int" then (boundedInteger? text.toList).join
  else if tag = tagStart ++ "float" then float? text.toList
  else if tag = tagStart ++ "null" then if text ∈ nullTexts then some .null else none
  else some (.text text)

def Scalar.ofUntagged? (text : String) (plain : Bool) : Option Scalar :=
  if plain then ofPlain? text else some (.text text)

def localTag? (tag : Option String) : Option String :=
  match tag.map String.toList with
  | some ('!' :: name) => some (String.ofList name)
  | _ => none

namespace Node

def text? : Node → Option String
  | .scalar text _ _ => some text
  | _ => none

def isEmpty : Node → Bool
  | .scalar text plain _ => plain && text == ""
  | _ => false

/-- Whether a scalar stands for null. -/
def isNull : Node → Bool
  | .scalar text plain tag =>
      if tag = some (tagStart ++ "null") then decide (text ∈ Scalar.nullTexts)
      else tag.isNone && plain && (text == "" || decide (text ∈ Scalar.nullTexts))
  | _ => false

/-- The name of a constant, which is the text of a scalar or its tag. -/
def constant? : Node → Option String
  | .scalar text plain tag =>
      match localTag? tag with
      | some name =>
          if plain && (text == "" || decide (text ∈ Scalar.nullTexts)) then some name
          else none
      | none => some text
  | _ => none

end Node

namespace Value

/-- A value behind the tag of the document's own, where there is one; it has a name. -/
def tagged? (tag : Option String) (value : Value) : Option Value :=
  match localTag? tag with
  | some name => if name = "" then none else some (.tagged name value)
  | none => some value

def distinct? : List (Value × Value) → Option (List (Value × Value))
  | [] => some []
  | (key, value) :: rest =>
      if rest.any fun other => key.same other.1 then none
      else do
        let rest ← distinct? rest
        return (key, value) :: rest

mutual

/-- The value of a node; no key of a mapping may come twice. -/
def ofNode? : Node → Option Value
  | .scalar text plain tag => do
      let value ←
        match tag, localTag? tag with
        | some tag, none => Scalar.ofTagged? tag text
        | _, _ => Scalar.ofUntagged? text plain
      tagged? tag (.scalar value)
  | .sequence items tag => do
      let items ← itemsOfNodes? items
      tagged? tag (.sequence items)
  | .mapping entries tag => do
      let entries ← entriesOfNodes? entries
      let entries ← distinct? entries
      tagged? tag (.mapping entries)

def itemsOfNodes? : List Node → Option (List Value)
  | [] => some []
  | item :: rest => do
      let item ← ofNode? item
      let rest ← itemsOfNodes? rest
      return item :: rest

def entriesOfNodes? : List (Node × Node) → Option (List (Value × Value))
  | [] => some []
  | (key, value) :: rest => do
      let key ← ofNode? key
      let value ← ofNode? value
      let rest ← entriesOfNodes? rest
      return (key, value) :: rest

end

end Value

namespace Node

mutual

/-- A node as plain data: it has no tags of its own, and every scalar is a key by its
text. -/
def toJson? : Node → Option Json
  | .scalar text plain tag =>
      match tag, localTag? tag with
      | some _, some _ => none
      | some tag, none => Scalar.toJson <$> Scalar.ofTagged? tag text
      | none, _ => Scalar.toJson <$> Scalar.ofUntagged? text plain
  | .sequence items tag =>
      if (localTag? tag).isSome then none else .array <$> itemsToJson? items
  | .mapping entries tag =>
      if (localTag? tag).isSome then none else .object <$> entriesToJson? entries

def itemsToJson? : List Node → Option (List Json)
  | [] => some []
  | item :: rest => do
      let item ← item.toJson?
      let rest ← itemsToJson? rest
      return item :: rest

def entriesToJson? : List (Node × Node) → Option (List (String × Json))
  | [] => some []
  | (key, value) :: rest => do
      let name ← key.text?
      let value ← value.toJson?
      let rest ← entriesToJson? rest
      return (name, value) :: rest

end

/-- The entries of a mapping with the texts of their keys. -/
def named? (entries : List (Node × Node)) : Option (List (String × Node)) :=
  entries.mapM fun entry => do
    let name ← entry.1.text?
    return (name, entry.2)

def entries? : Node → Option (List (String × Node))
  | .mapping entries _ => named? entries
  | other => if other.isEmpty then some [] else none

def items? : Node → Option (List Node)
  | .sequence items _ => some items
  | other => if other.isEmpty then some [] else none

def record? (names : List String) (node : Node) : Option (List (String × Node)) := do
  let entries ← node.entries?
  Source.single? (entries.filter fun entry => entry.1 ∈ names)

end Node

instance : Source Node where
  text? := Node.text?
  items? := Node.items?
  entries? := Node.entries?
  record? := Node.record?
  isAbsent := Node.isNull
  constant? := Node.constant?
  json? := Node.toJson?
  value? := Value.ofNode?

end DeployTarget.Yaml
