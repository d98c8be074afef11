import DeployTarget.Document
import DeployTarget.Proofs.CompactText
import DeployTarget.Proofs.DocumentTokens
import DeployTarget.Proofs.Refolding
import DeployTarget.Proofs.WrittenTags

/-!
# The texts of a definition

A definition that was read is written as a document, and the document is read again.  What is
written reads back as itself whenever no object of it holds a key twice, which one kind does:
its filter of hosts stands under the name of the tags.  The compact text of a definition is read
as a document too, and reads back as the definition only if none of its texts needs an escape
that compact text does not write.
-/

namespace DeployTarget

namespace Yaml

open Writer

theorem isFaithful_isPlain : Value.IsFaithful isPlain := by
  intro text plain
  have style : styleOf text = .plain := by simpa [isPlain] using plain
  exact (Lexeme.isPlain_of_styleOf style).2.2

/-- The text of a mapping is read as the tree of the mapping. -/
theorem Node.ofText?_write {entries : List (String × Json)} (nonempty : entries ≠ [])
    (fits : (Json.object entries).fits deepest = true) :
    ofText? (write (.object entries)) = some (ofJson isPlain (.object entries)) := by
  have tokens : Token.ofText? (write (.object entries)) = _ := Token.ofText?_write nonempty fits
  rw [ofText?, tokens]
  exact ofTokens?_tokens (.object entries) fits

/-- The text of a mapping is read as the mapping if and only if no key of it comes twice. -/
theorem Value.ofText?_write {entries : List (String × Json)} (nonempty : entries ≠ [])
    (fits : (Json.object entries).fits Node.deepest = true) :
    (Node.ofText? (write (.object entries)) >>= ofNode?) =
      if (Json.object entries).isDistinct then some (ofJson (.object entries)) else none := by
  rw [Node.ofText?_write nonempty fits]
  exact ofNode?_ofJson isFaithful_isPlain Node.deepest (.object entries) fits

end Yaml

open Yaml

namespace Definition

/-- The text of a definition says what the definition is written as, or nothing where a key
comes twice. -/
theorem ofText_write (definition : Definition) :
    ofText (Yaml.write definition.toJson) =
      if definition.toJson.isDistinct then ofValue (Value.ofJson definition.toJson)
      else .error (.parse .unreadable) := by
  have fits : definition.toJson.fits Node.deepest = true :=
    Json.fits_mono (by decide) definition.toJson definition.fits_toJson
  have read : (Node.ofText? (Yaml.write definition.toJson) >>= Value.ofNode?) =
      if definition.toJson.isDistinct then some (Value.ofJson definition.toJson) else none :=
    Value.ofText?_write (List.cons_ne_nil _ _) fits
  rw [ofText, read]
  cases definition.toJson.isDistinct <;> rfl

/-- The compact text of a definition says what the definition is written as, with its texts
folded, or nothing where a text is not readable there or a key comes twice. -/
theorem ofText_compact (definition : Definition) :
    ofText definition.toJson.compact =
      if definition.toJson.everyText Flow.isReadable Flow.isReadableKey &&
          definition.toJson.isDistinct then
        ofValue (Value.ofJson (definition.toJson.mapTexts refold))
      else .error (.parse .unreadable) := by
  have fits : definition.toJson.fits Node.deepest = true :=
    Json.fits_mono (by decide) definition.toJson definition.fits_toJson
  have read : (Node.ofText? definition.toJson.compact >>= Value.ofNode?) =
      if definition.toJson.everyText Flow.isReadable Flow.isReadableKey &&
          definition.toJson.isDistinct then
        some (Value.ofJson (definition.toJson.mapTexts refold))
      else none :=
    Value.ofText?_compact fits
  rw [ofText, read]
  cases definition.toJson.everyText Flow.isReadable Flow.isReadableKey &&
    definition.toJson.isDistinct <;> rfl

/-- A definition that was read is read again from its own text, and no object of the text holds
a key twice.  The kind that filters its hosts by tags writes its tags and its filter under one
name, and its text is no document.

The compact text of a definition is read only if its texts and keys are readable there, and as
the definition only if they are kept: compact text escapes neither all that a document may not
hold nor the line breaks that a document folds, and nothing marks a long key in it. -/
theorem ofText_write_and_compact_of_ofValue (value : Value) (definition : Definition)
    (parsed : ofValue value = .ok definition) :
    (definition.toJson.isDistinct = true ↔ definition.kind ≠ .sshWinRmAzure) ∧
      (ofText (Yaml.write definition.toJson) =
        if definition.kind = .sshWinRmAzure then .error (.parse .unreadable)
        else .ok definition) ∧
      (ofText definition.toJson.compact =
        if definition.kind ≠ .sshWinRmAzure ∧
            definition.toJson.everyText Flow.isReadable Flow.isReadableKey = true then
          ofValue (Value.ofJson (definition.toJson.mapTexts refold))
        else .error (.parse .unreadable)) ∧
      (ofText definition.toJson.compact = .ok definition ↔
        definition.kind ≠ .sshWinRmAzure ∧
          definition.toJson.everyText Flow.isKept Flow.isReadableKey = true) := by
  have distinct := definition.isDistinct_toJson
  have legible := isLegible_of_ofValue parsed
  have compact : ofText definition.toJson.compact =
      if definition.kind ≠ .sshWinRmAzure ∧
          definition.toJson.everyText Flow.isReadable Flow.isReadableKey = true then
        ofValue (Value.ofJson (definition.toJson.mapTexts refold))
      else .error (.parse .unreadable) := by
    rw [ofText_compact]
    simp only [Bool.and_eq_true, distinct, and_comm]
  refine ⟨distinct, ?_, compact, ?_⟩
  · rw [ofText_write]
    by_cases filters : definition.kind = .sshWinRmAzure
    · have repeated : ¬ definition.toJson.isDistinct = true :=
        fun holds => distinct.mp holds filters
      rw [if_neg repeated, if_pos filters]
    · rw [if_pos (distinct.mpr filters), if_neg filters]
      exact ofValue_ofJson legible filters
  · rw [compact, Flow.everyText_isKept, ← and_assoc]
    constructor
    · intro reads
      split_ifs at reads with readable
      exact ⟨readable, recovers legible readable.1 reads⟩
    · rintro ⟨readable, kept⟩
      rw [if_pos readable, kept]
      exact ofValue_ofJson legible readable.1

/-- A function with tags is read again from both of its texts. -/
theorem ofText_write_and_compact_of_ofValue_taggedDocument :
    ∃ definition, ofValue (taggedDocument .awsLambda) = .ok definition ∧
      definition.toJson.isDistinct = true ∧
      ofText (Yaml.write definition.toJson) = .ok definition ∧
      ofText definition.toJson.compact = .ok definition := by
  have written := ofText_write_and_compact_of_ofValue (taggedDocument .awsLambda) _ rfl
  exact ⟨_, rfl, written.1.mpr (by decide), written.2.1,
    written.2.2.2.mpr ⟨by decide, by decide⟩⟩

/-- A target whose kind filters its hosts by tags is written with a key that comes twice, and is
not read again. -/
theorem rejects_write_taggedDocument :
    ∃ definition, ofValue (taggedDocument .sshWinRmAzure) = .ok definition ∧
      definition.toJson.isDistinct = false ∧
      ofText (Yaml.write definition.toJson) = .error (.parse .unreadable) ∧
      ofText definition.toJson.compact = .error (.parse .unreadable) := by
  refine ⟨_, rfl, by decide, ?_, ?_⟩
  · rw [ofText_write, if_neg (by decide)]
  · rw [ofText_compact, if_neg (by decide)]

/-- A document of a function with a name and a tag. -/
def functionDocument (name key : String) : Value :=
  .mapping
    [(.text "type", .text Kind.awsLambda.tag),
      (.text "spec", .mapping
        [(.text "infraName", .text name), (.text "tags", .mapping [(.text key, .text "blue")])])]

/-- The delete character stands for itself in compact text, which no document may hold. -/
theorem rejects_compact_delete :
    ∃ definition, ofValue (functionDocument "a\x7fb" "team") = .ok definition ∧
      ofText definition.toJson.compact = .error (.parse .unreadable) := by
  refine ⟨_, rfl, ?_⟩
  rw [ofText_compact, if_neg (by decide)]

/-- A blank in front of a line break is lost. -/
theorem folds_compact_lines :
    ∃ definition other, ofValue (functionDocument "a \u2028b" "team") = .ok definition ∧
      ofValue (functionDocument "a\u2028b" "team") = .ok other ∧
      ofText definition.toJson.compact = .ok other ∧ other ≠ definition := by
  refine ⟨_, _, rfl, rfl, ?_, fun same => ?_⟩
  · rw [ofText_compact, if_pos (by decide)]
    rfl
  · exact absurd (congrArg (fun definition => definition.details.name) same) (by decide)

theorem rejects_compact_of_isReadableKey {key : String}
    (unreadable : Flow.isReadableKey key = false) :
    ∃ definition, ofValue (functionDocument "a" key) = .ok definition ∧
      ofText definition.toJson.compact = .error (.parse .unreadable) := by
  refine ⟨_, rfl, ?_⟩
  have tags : (Json.ofPairs [(key, "blue")]).everyText Flow.isReadable Flow.isReadableKey =
      false := by
    simp [Json.ofPairs, Json.everyText, Json.everyTextOfEntries, unreadable]
  rw [ofText_compact, toJson]
  simp [Json.ofChoice, Details.entries, FieldValue.toJson, Json.everyText,
    Json.everyTextOfEntries, OrderedMap.ofList, OrderedMap.insertAll, OrderedMap.insert, upsert,
    OrderedMap.empty, tags]

/-- A key of 1100 letters is not known as one. -/
theorem rejects_compact_longKey :
    ∃ definition,
      ofValue (functionDocument "a" (String.ofList (List.replicate 1100 'k'))) = .ok definition ∧
      ofText definition.toJson.compact = .error (.parse .unreadable) := by
  have long : Lexer.State.longestKey < (String.ofList (List.replicate 1100 'k')).length := by
    rw [String.length_ofList, List.length_replicate]
    decide
  refine rejects_compact_of_isReadableKey ?_
  rw [Flow.isReadableKey, Flow.isNear_eq_false long, Bool.and_false]

end Definition

end DeployTarget
