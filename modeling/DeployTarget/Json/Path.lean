import DeployTarget.Json.Basic
import DeployTarget.Text.Blank

/-!
# Paths into plain data

A path such as `a.b[0].c` is cut at its dots; empty segments count for nothing.  A
segment is a key followed by positions in brackets, and either part may be missing.
A path that is no such text leads nowhere, and neither does a step that the value
at hand does not offer.
-/

namespace DeployTarget.Json

/-- One step of a path. -/
inductive Step where
  | key (name : String)
  | position (index : Nat)
deriving DecidableEq, Repr

def largestPosition : Nat :=
  UInt64.size - 1

/-- A position: decimal digits behind an optional plus sign. -/
def readPosition? (cs : List Char) : Option Nat :=
  let digits := match cs with
    | '+' :: rest => rest
    | rest => rest
  if digits ≠ [] ∧ digits.all Char.isDigit ∧ Number.ofDigits digits ≤ largestPosition then
    some (Number.ofDigits digits)
  else none

/-- The text in front of a closing bracket, read as a position between blanks. -/
def readBracket? (cs : List Char) : Option Step := do
  let inside ← [']'].isSuffixOf? cs
  let index ← readPosition? (Text.trimmed inside)
  return .position index

/-- The steps of one segment: a key unless it is empty, then the bracketed positions.
Between two opening brackets an empty text counts for nothing. -/
def segmentSteps? (segment : List Char) : Option (List Step) := do
  let name := segment.takeWhile (· != '[')
  let brackets := (segment.dropWhile (· != '[')).splitOn '['
  let positions ← (brackets.filter (· ≠ [])).mapM readBracket?
  return if name = [] then positions else .key (String.ofList name) :: positions

def pathSteps? (path : List Char) : Option (List Step) := do
  let segments ← ((path.splitOn '.').filter (· ≠ [])).mapM segmentSteps?
  return segments.flatten

def step? (value : Json) : Step → Option Json
  | .key name => value.get? name
  | .position index => value.item? index

def walk? (value : Json) (steps : List Step) : Option Json :=
  steps.foldlM step? value

def find? (value : Json) (path : String) : Option Json := do
  let steps ← pathSteps? path.toList
  value.walk? steps

end DeployTarget.Json
