import DeployTarget.Proofs.Canonical

/-!
# Fields that are written

All states of a field are written as bare plain data, without a mark that tells them apart, and
named texts are sorted on the way.  A field that was read from plain data is nevertheless written as
that data, except that runtime input loses its blanks and its modifiers, so reading it once more
yields the same field.
-/

namespace DeployTarget

namespace Field

/-- The types of the values that fields hold. -/
inductive ValueType where
  | text
  | flag
  | tags
  | texts
  | hosts
deriving DecidableEq, Repr

namespace ValueType

/-- The values of a type. -/
abbrev Carrier : ValueType → Type
  | .text => String
  | .flag => Bool
  | .tags => Tags
  | .texts => List String
  | .hosts => HostList

instance fieldValue : (type : ValueType) → FieldValue type.Carrier
  | .text => inferInstanceAs (FieldValue String)
  | .flag => inferInstanceAs (FieldValue Bool)
  | .tags => inferInstanceAs (FieldValue Tags)
  | .texts => inferInstanceAs (FieldValue (List String))
  | .hosts => inferInstanceAs (FieldValue HostList)

instance lawful : (type : ValueType) → FieldValue.Lawful type.Carrier
  | .text => inferInstanceAs (FieldValue.Lawful String)
  | .flag => inferInstanceAs (FieldValue.Lawful Bool)
  | .tags => inferInstanceAs (FieldValue.Lawful Tags)
  | .texts => inferInstanceAs (FieldValue.Lawful (List String))
  | .hosts => inferInstanceAs (FieldValue.Lawful HostList)

end ValueType

/-- Whether plain data is a text that makes a field wait for runtime input. -/
def isRuntimeInputData : Json → Bool
  | .string text => isRuntimeInputText text
  | _ => false

theorem isRuntimeInputData_canonical (raw : Json) :
    isRuntimeInputData raw.canonical = isRuntimeInputData raw := by
  cases raw <;> rfl

variable {α : Type} [FieldValue α]

theorem isPending_of_ofJson {raw : Json} {field : Field α} (read : ofJson raw = .ok field) :
    field.isPending = isRuntimeInputData raw := by
  cases ofJson_eq_ok_iff.mp read with
  | pending written input =>
      rw [written]
      exact input.symm
  | expression written noInput =>
      rw [written]
      exact noInput.symm
  | literal plain =>
      cases raw with
      | string text => exact (plain text rfl).1.symm
      | null | bool | number | array | object => rfl

/-- A field is written as the data that it was read from, and runtime input as the marker. -/
theorem canonical_toJson_of_ofJson [FieldValue.Lawful α] {raw : Json} {field : Field α}
    (read : ofJson raw.canonical = .ok field) :
    field.toJson.canonical =
      if isRuntimeInputData raw then .string inputMarker else raw.canonical := by
  rw [← isRuntimeInputData_canonical, ← isPending_of_ofJson read]
  cases ofJson_eq_ok_iff.mp read with
  | pending => rfl
  | expression written => exact written.symm
  | literal _ fits => exact FieldValue.Lawful.canonical_toJson fits

/-- A field that is read from plain data is read again from what it is written as, whatever the type
of its values and whichever state it is in.  Runtime input, and nothing else, is read as a field
that waits and is written as the marker; all other data is written as it was read.  So hosts that
were one text are that text, and hosts that were a list of texts are that list. -/
theorem ofJson_toJson_of_ofJson (type : ValueType) (raw : Json) (field : Field type.Carrier)
    (read : ofJson raw.canonical = .ok field) :
    ofJson field.toJson.canonical = .ok field ∧
      field.isPending = isRuntimeInputData raw ∧
      field.toJson.canonical =
        (if isRuntimeInputData raw then .string inputMarker else raw.canonical) ∧
      match type, field with
      | .hosts, .literal (.joined text) => raw.canonical = .string text
      | .hosts, .literal (.listed texts) => raw.canonical = .strings texts
      | _, _ => True := by
  have waits : field.isPending = isRuntimeInputData raw := by
    rw [isPending_of_ofJson read, isRuntimeInputData_canonical]
  have written := canonical_toJson_of_ofJson read
  refine ⟨isLegible_of_ofJson read, waits, written, ?_⟩
  rw [← waits] at written
  split
  next text _ => exact written.symm
  next texts _ =>
    calc
      raw.canonical = (Json.strings texts).canonical := written.symm
      _ = .strings texts := congrArg Json.array (Json.canonicalItems_strings texts)
  next => trivial

/-- Attributes are sorted by their names, runtime input loses its modifiers, and a list of hosts
stays as it is, even if one of them looks like an expression. -/
theorem ofJson_toJson_of_ofJson_writtenPool :
    let attributes : Json := .object [("zone", .string "east"), ("hostname", .string "ip")]
    let input : Json := .string " <+input>.default(one,two)"
    let hosts : Json := .strings ["<+hosts.first>", "two, three"]
    (∃ field : Field Tags, ofJson attributes.canonical = .ok field ∧
      ofJson field.toJson.canonical = .ok field ∧
      field.toJson.canonical = .object [("hostname", .string "ip"), ("zone", .string "east")]) ∧
    (∃ field : Field HostList, ofJson input.canonical = .ok field ∧
      ofJson field.toJson.canonical = .ok field ∧ field.toJson.canonical = .string "<+input>") ∧
    ∃ field : Field HostList, ofJson hosts.canonical = .ok field ∧
      ofJson field.toJson.canonical = .ok field ∧ field.toJson.canonical = hosts := by
  intro attributes input hosts
  have readAttributes := ofJson_toJson_of_ofJson .tags attributes _ rfl
  have readInput := ofJson_toJson_of_ofJson .hosts input _ rfl
  have readHosts := ofJson_toJson_of_ofJson .hosts hosts _ rfl
  refine ⟨⟨_, rfl, ?_⟩, ⟨_, rfl, ?_⟩, ⟨_, rfl, ?_⟩⟩
  · exact ⟨readAttributes.1, readAttributes.2.2.1⟩
  · exact ⟨readInput.1, readInput.2.2.1⟩
  · exact ⟨readHosts.1, readHosts.2.2.1⟩

end Field

end DeployTarget
