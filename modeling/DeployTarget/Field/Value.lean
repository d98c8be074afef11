import DeployTarget.HostList
import DeployTarget.Json.Printer
import DeployTarget.Field.Text
import DeployTarget.OrderedMap
import DeployTarget.Text.Quoted

/-!
# The types of field values

A field holds a text, a boolean, named texts, a list of texts or a host list.  Each
type says how its values are read from plain data, how they are written back, and
which of them count as no value.
-/

namespace DeployTarget

/-- What a reader of plain data expects. -/
inductive Expected where
  | text
  | boolean
  | map
  | sequence
deriving DecidableEq, Repr

def Expected.message : Expected → String
  | .text => "a string"
  | .boolean => "a boolean"
  | .map => "a map"
  | .sequence => "a sequence"

/-- Why a plain value is no value of a type. -/
inductive Mismatch where
  | unexpected (found : Json) (expected : Expected)
  | noHostList
deriving Repr

namespace Mismatch

def describe : Json → String
  | .null => "null"
  | .bool value => "boolean `" ++ (if value then "true" else "false") ++ "`"
  | .number (.int value) => "integer `" ++ (Number.int value).text ++ "`"
  | .number (.float value) => "floating point `" ++ (Number.float value).text ++ "`"
  | .string text => "string " ++ Text.shown text
  | .array _ => "sequence"
  | .object _ => "map"

def message : Mismatch → String
  | .unexpected found expected =>
      "invalid type: " ++ describe found ++ ", expected " ++ expected.message
  | .noHostList => "data did not match any variant of untagged enum HostList"

end Mismatch

/-- A type whose values a field can hold. -/
class FieldValue (α : Type) where
  ofJson : Json → Except Mismatch α
  toJson : α → Json
  isBlank : α → Bool
  /-- Whether a value is the text that defers it to the run. -/
  isInputMarker : α → Bool

def readText : Json → Except Mismatch String
  | .string text => .ok text
  | other => .error (.unexpected other .text)

/-- Reads a list of texts; the first item that is no text is the mismatch. -/
def readTexts : Json → Except Mismatch (List String)
  | .array items => items.mapM readText
  | other => .error (.unexpected other .sequence)

/-- Reads named texts; the first entry whose value is no text is the mismatch. -/
def readTags : Json → Except Mismatch Tags
  | .object entries => do
      let pairs ← entries.mapM fun entry => do
        let text ← readText entry.2
        return (entry.1, text)
      return OrderedMap.ofList pairs
  | other => .error (.unexpected other .map)

instance : FieldValue String where
  ofJson := readText
  toJson := .string
  isBlank text := text == ""
  isInputMarker := Field.isRuntimeInputText

instance : FieldValue Bool where
  ofJson
    | .bool value => .ok value
    | other => .error (.unexpected other .boolean)
  toJson := .bool
  isBlank _ := false
  isInputMarker _ := false

instance : FieldValue Tags where
  ofJson := readTags
  toJson tags := .ofPairs tags.entries
  isBlank tags := tags.isEmpty
  isInputMarker _ := false

instance : FieldValue (List String) where
  ofJson := readTexts
  toJson := .strings
  isBlank texts := texts.isEmpty
  isInputMarker _ := false

instance : FieldValue HostList where
  ofJson
    | .string text => .ok (.joined text)
    | .array items =>
        match items.mapM readText with
        | .ok texts => .ok (.listed texts)
        | .error _ => .error .noHostList
    | _ => .error .noHostList
  toJson
    | .joined text => .string text
    | .listed texts => .strings texts
  isBlank hosts := hosts.split.isEmpty
  isInputMarker _ := false

/-- Reads a value that an evaluator supplied.  A number or a boolean that does not
fit the type is read once more as its text. -/
def readSupplied (α : Type) [FieldValue α] (raw : Json) : Except Mismatch α :=
  match FieldValue.ofJson raw, raw with
  | .ok value, _ => .ok value
  | .error _, .number value => FieldValue.ofJson (.string value.text)
  | .error _, .bool true => FieldValue.ofJson (.string "true")
  | .error _, .bool false => FieldValue.ofJson (.string "false")
  | .error mismatch, _ => .error mismatch

end DeployTarget
