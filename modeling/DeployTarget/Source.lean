import DeployTarget.OrderedMap
import DeployTarget.Yaml.Value

/-!
# Sources of records

A record is read from the text of a document, from a value, or from a value that had
to be held back because its type came after it.  The sources differ in what they take
for a text, an empty list and a record.  Held values are the strictest about what is
empty: null is no empty list there, and they have no tags.  They are the freest about
records, whose fields may also come as a list, or be named by their positions.
-/

namespace DeployTarget

/-- A form of data from which records of texts are read. -/
class Source (ν : Type) where
  text? : ν → Option String
  items? : ν → Option (List ν)
  entries? : ν → Option (List (String × ν))
  /-- The entries of a record whose fields have the given names. -/
  record? : List String → ν → Option (List (String × ν))
  isAbsent : ν → Bool
  /-- The data as the name of one of several constants. -/
  constant? : ν → Option String
  json? : ν → Option Json
  value? : ν → Option Yaml.Value

/-- A value that had to be held back until its type was known. -/
structure Held where
  value : Yaml.Value

/-- A form of data from which definitions are read. -/
class Source.Typed (ν : Type) extends Source ν where
  flag? : ν → Option Bool
  isNull : ν → Bool
  /-- The entries of the body of a choice, whose fields have the given names. -/
  body? : List String → ν → Option (List (String × ν))
  /-- The entries of a record that may have fields of any name. -/
  open? : ν → Option (List (String × ν))
  /-- The data as a value to be held back. -/
  held? : ν → Option Held

namespace Source

def single? {ν : Type} (entries : List (String × ν)) : Option (List (String × ν)) :=
  if (entries.map Prod.fst).Nodup then some entries else none

variable {ν : Type} [Source ν]

def list? {α : Type} (read : ν → Option α) (data : ν) : Option (List α) := do
  let items ← items? data
  items.mapM read

def tags? (data : ν) : Option Tags := do
  let entries ← entries? data
  let pairs ← entries.mapM fun entry => do
    let text ← text? entry.2
    return (entry.1, text)
  return OrderedMap.ofList pairs

def option? {α : Type} (read : ν → Option α) (data : ν) : Option (Option α) :=
  if isAbsent data then some none else some <$> read data

def required {α : Type} (read : ν → Option α) (entries : List (String × ν))
    (name : String) : Option α :=
  entries.lookup name >>= read

/-- Reads a field of a record that has a default. -/
def optional {α : Type} (default : α) (read : ν → Option α)
    (entries : List (String × ν)) (name : String) : Option α :=
  match entries.lookup name with
  | some data => read data
  | none => some default

end Source

namespace Yaml.Value

def recordEntries? (names : List String) (entries : List (Value × Value)) :
    Option (List (String × Value)) := do
  let named ← named? entries
  Source.single? (named.filter fun entry => entry.1 ∈ names)

end Yaml.Value

open Yaml in
instance : Source Yaml.Value where
  text? := Value.text?
  items? value :=
    match value.untagged with
    | .sequence items => some items
    | .scalar .null => some []
    | _ => none
  entries? value :=
    match value.untagged with
    | .mapping entries => Value.named? entries
    | .scalar .null => some []
    | _ => none
  record? names value :=
    match value.untagged with
    | .mapping entries => Value.recordEntries? names entries
    | .scalar .null => some []
    | _ => none
  isAbsent
    | .scalar .null => true
    | _ => false
  constant?
    | .scalar (.text name) => some name
    | .tagged tag (.scalar .null) => some tag
    | _ => none
  json? := Value.toJson?
  value? := some

open Yaml in
instance : Source.Typed Yaml.Value where
  flag? value :=
    match value.untagged with
    | .scalar (.bool flag) => some flag
    | _ => none
  isNull
    | .scalar .null => true
    | _ => false
  body? names
    | .mapping entries => Value.recordEntries? names entries
    | _ => none
  open? value :=
    match value.untagged with
    | .mapping entries => Value.named? entries
    | .scalar .null => some []
    | _ => none
  held? value := if value.hasTag then none else some ⟨value⟩

namespace Held

open Yaml

/-- A name that is a text, or the position of one of the given names. -/
def name? (names : List String) : Value → Option (Option String)
  | .scalar (.text name) => some (some name)
  | .scalar (.number (.int (.ofNat position))) => some names[position]?
  | _ => none

/-- The entries with names of their own, where every key is a text or a position. -/
def entries? (names : List String) (entries : List (Value × Value)) :
    Option (List (String × Held)) := do
  let named ← entries.mapM fun entry => do
    let name ← name? names entry.1
    return name.map fun name => (name, (⟨entry.2⟩ : Held))
  return named.filterMap id

def recordEntries? (names : List String) (written : List (Value × Value)) :
    Option (List (String × Held)) := do
  let named ← entries? names written
  Source.single? (named.filter fun entry => entry.1 ∈ names)

end Held

open Yaml in
instance : Source Held where
  text? held :=
    match held.value with
    | .scalar (.text text) => some text
    | _ => none
  items? held :=
    match held.value with
    | .sequence items => some (items.map Held.mk)
    | _ => none
  entries? held :=
    match held.value with
    | .mapping entries => do
        let named ← Value.named? entries
        return named.map fun entry => (entry.1, ⟨entry.2⟩)
    | _ => none
  record? names held :=
    match held.value with
    | .mapping entries => Held.recordEntries? names entries
    | .sequence items =>
        if items.length ≤ names.length then some (names.zip (items.map Held.mk)) else none
    | _ => none
  isAbsent held :=
    match held.value with
    | .scalar .null => true
    | _ => false
  constant? held :=
    match held.value with
    | .scalar (.text name) => some name
    | .mapping [(.scalar (.text name), .scalar .null)] => some name
    | _ => none
  json? held := held.value.toJson?
  value? held := some held.value

open Yaml in
instance : Source.Typed Held where
  flag? held :=
    match held.value with
    | .scalar (.bool flag) => some flag
    | _ => none
  isNull held :=
    match held.value with
    | .scalar .null => true
    | _ => false
  body? names held :=
    match held.value with
    | .mapping entries => Held.recordEntries? names entries
    | _ => none
  open? held :=
    match held.value with
    | .mapping entries => Held.entries? [] entries
    | _ => none
  held? := some

end DeployTarget
