import DeployTarget.Number.Basic

/-!
# Plain data

A plain value is null, a boolean, a number, a text, a list or an object.  An object
keeps its entries in order.  A canonical value holds each key of an object once, the
last value written for it, and sorts the keys by code points; documents that are
data rather than definitions are canonical.
-/

namespace DeployTarget

/-- A plain value. -/
inductive Json where
  | null
  | bool (value : Bool)
  | number (value : Number)
  | string (text : String)
  | array (items : List Json)
  | object (entries : List (String × Json))
deriving Inhabited, Repr

namespace Json

/-- Whether the value is null. -/
def isNull : Json → Bool
  | .null => true
  | _ => false

def get? (name : String) : Json → Option Json
  | .object entries => entries.lookup name
  | _ => none

def item? (position : Nat) : Json → Option Json
  | .array items => items[position]?
  | _ => none

def strings (texts : List String) : Json :=
  .array (texts.map .string)

def ofPairs (pairs : List (String × String)) : Json :=
  .object (pairs.map fun pair => (pair.1, .string pair.2))

/-- An optional text: null where it is absent. -/
def ofText? : Option String → Json
  | some text => .string text
  | none => .null

/-- Writes an entry into entries sorted by key, in place of an earlier one. -/
def insertSorted (key : String) (value : Json) :
    List (String × Json) → List (String × Json)
  | [] => [(key, value)]
  | (other, old) :: rest =>
      if key < other then (key, value) :: (other, old) :: rest
      else if key = other then (key, value) :: rest
      else (other, old) :: insertSorted key value rest

/-- Entries sorted by key, the last entry of each key. -/
def sortEntries (entries : List (String × Json)) : List (String × Json) :=
  entries.foldl (fun sorted entry => insertSorted entry.1 entry.2 sorted) []

mutual

/-- The value with the objects in it sorted by key, the last entry of each key. -/
def canonical : Json → Json
  | .array items => .array (canonicalItems items)
  | .object entries => .object (sortEntries (canonicalEntries entries))
  | .null => .null
  | .bool value => .bool value
  | .number value => .number value
  | .string text => .string text

def canonicalItems : List Json → List Json
  | [] => []
  | item :: rest => item.canonical :: canonicalItems rest

def canonicalEntries : List (String × Json) → List (String × Json)
  | [] => []
  | (key, value) :: rest => (key, value.canonical) :: canonicalEntries rest

end

end Json

end DeployTarget
