import DeployTarget.Proofs.Canonical
import DeployTarget.Proofs.LineBlock

/-!
# The characters of written documents

Whatever is written holds only characters that may stand in a document, since other ones are
escaped.
-/

namespace DeployTarget.Yaml

open Writer

theorem isAllowed_of_isPrintable {c : Char} (printable : isPrintable c = true) :
    isAllowed c = true ∧ c ≠ byteOrderMark := by
  simp only [isPrintable, Bool.or_eq_true, Bool.and_eq_true, beq_iff_eq, bne_iff_ne,
    decide_eq_true_eq] at printable
  refine ⟨?_, ?_⟩
  · simp only [isAllowed, Bool.or_eq_true, Bool.and_eq_true, beq_iff_eq, decide_eq_true_eq]
    omega
  · rintro rfl
    simp [byteOrderMark] at printable

/-- Whether all characters may be written. -/
def ArePrintable (text : List Char) : Prop :=
  ∀ c ∈ text, isPrintable c = true

instance (text : List Char) : Decidable (ArePrintable text) :=
  List.decidableBAll (fun c => isPrintable c = true) text

theorem arePrintable_append {first second : List Char} :
    ArePrintable (first ++ second) ↔ ArePrintable first ∧ ArePrintable second := by
  simp [ArePrintable, or_imp, forall_and]

theorem arePrintable_cons {c : Char} {rest : List Char} :
    ArePrintable (c :: rest) ↔ isPrintable c = true ∧ ArePrintable rest := by
  simp [ArePrintable]

theorem arePrintable_nil : ArePrintable [] := by
  simp [ArePrintable]

theorem arePrintable_blanks (count : Nat) : ArePrintable (blanks count) := by
  intro c member
  rw [List.eq_of_mem_replicate member]
  decide

theorem arePrintable_singleQuotedTail (indent : Nat) {text : List Char}
    (printable : ArePrintable text) :
    ∀ afterBreak, ArePrintable (singleQuotedTail indent afterBreak text) := by
  have indentation (afterBreak : Bool) :
      ArePrintable (if afterBreak then blanks indent else []) := by
    split
    · exact arePrintable_blanks indent
    · exact arePrintable_nil
  have quote : isPrintable '\'' = true := by decide
  induction text with
  | nil =>
      intro afterBreak
      simp [singleQuotedTail, arePrintable_append, arePrintable_cons, arePrintable_nil, indentation,
        quote]
  | cons c text ih =>
      intro afterBreak
      obtain ⟨first, others⟩ := arePrintable_cons.mp printable
      rw [singleQuotedTail]
      split_ifs <;>
        simp [arePrintable_append, arePrintable_cons, arePrintable_blanks, quote, first,
          ih others]

theorem arePrintable_blockTail (indent : Nat) {text : List Char} (printable : ArePrintable text) :
    ∀ afterBreak, ArePrintable (blockTail indent afterBreak text) := by
  induction text with
  | nil => simp [blockTail, ArePrintable]
  | cons c text ih =>
      intro afterBreak
      obtain ⟨first, others⟩ := arePrintable_cons.mp printable
      rw [blockTail]
      split_ifs <;>
        simp [arePrintable_append, arePrintable_cons, arePrintable_blanks, first, ih others]

theorem arePrintable_hexDigits (length number : Nat) : ArePrintable (hexDigits length number) := by
  have digits : ∀ digit < 16, isPrintable (Nat.digitChar digit).toUpper = true := by decide
  intro c member
  obtain ⟨position, -, rfl⟩ := List.mem_map.mp member
  exact digits _ (Nat.mod_lt _ (by decide))

theorem arePrintable_doubleQuotedCharacter (c : Char) :
    ArePrintable (doubleQuotedCharacter c) := by
  have escape : isPrintable '\\' = true := by decide
  have marks : ArePrintable ['x', 'u', 'U'] := by decide
  unfold doubleQuotedCharacter
  split
  next mark short =>
    unfold Writer.shortEscape? at short
    split at short <;> cases short <;> simp [arePrintable_cons, arePrintable_nil, escape] <;> decide
  next =>
    split_ifs with printable
    · simp [arePrintable_cons, arePrintable_nil, printable]
    all_goals
      refine arePrintable_cons.mpr ⟨escape, arePrintable_cons.mpr ⟨marks _ (by simp), ?_⟩⟩
      exact arePrintable_hexDigits _ _

theorem arePrintable_header (text : List Char) : ArePrintable (header text) := by
  obtain ⟨kind, ends⟩ := Lexeme.exists_chomping text
  have marks : ArePrintable ['|', '2', '-', '+'] := by decide
  rw [Lexeme.header_eq, ends]
  cases kind <;> split_ifs <;> intro c member <;> refine marks c ?_ <;>
    simp [Lexeme.Chomping.mark] at member ⊢ <;> tauto

theorem arePrintable_writeText (indent : Nat) (text : String) :
    ArePrintable (writeText indent text) := by
  have quotes : isPrintable '"' = true ∧ isPrintable '\'' = true ∧ isPrintable '\n' = true := by
    decide
  cases style : styleOf text with
  | plain =>
      simp only [writeText, style]
      exact fun c member => ((Lexeme.isPlain_of_styleOf style).1.characters c member).1
  | singleQuoted =>
      have allowed := (Lexeme.allowsSingleQuotes_of_styleOf style).1
      simp only [allowsSingleQuotes, needsEscapes, Bool.not_eq_true', Bool.or_eq_false_iff,
        List.any_eq_false] at allowed
      have printable : ArePrintable text.toList := fun c member => by
        simpa using allowed.1.1 c member
      simp only [writeText, style]
      exact arePrintable_cons.mpr ⟨quotes.2.1, arePrintable_singleQuotedTail indent printable false⟩
  | doubleQuoted =>
      have inside : ArePrintable (text.toList.flatMap doubleQuotedCharacter) := by
        intro c member
        obtain ⟨other, -, isWritten⟩ := List.mem_flatMap.mp member
        exact arePrintable_doubleQuotedCharacter other c isWritten
      simp only [writeText, style]
      simp [arePrintable_cons, arePrintable_append, arePrintable_nil, quotes, inside]
  | lines =>
      have allowed := (Lexeme.allowsLines_of_styleOf style).1
      simp only [allowsLines, needsEscapes, Bool.and_eq_true, Bool.not_eq_true',
        Bool.or_eq_false_iff, List.any_eq_false] at allowed
      have printable : ArePrintable text.toList := fun c member => by
        simpa using allowed.2.1.1 c member
      simp only [writeText, style]
      exact arePrintable_append.mpr ⟨arePrintable_header _,
        arePrintable_cons.mpr ⟨quotes.2.2, arePrintable_blockTail indent printable true⟩⟩

theorem arePrintable_endLine {written : List Char} (printable : ArePrintable written) :
    ArePrintable (endLine written) := by
  unfold endLine
  split
  · exact printable
  · exact arePrintable_append.mpr ⟨printable, by simp [ArePrintable]; decide⟩

theorem arePrintable_writeKey (indent : Nat) (key : String) :
    ArePrintable (writeKey indent key) := by
  have marks : isPrintable '?' = true ∧ isPrintable ' ' = true ∧ isPrintable ':' = true := by decide
  unfold writeKey
  split
  · simp [arePrintable_append, arePrintable_cons, arePrintable_nil, arePrintable_writeText, marks]
  · simp [arePrintable_append, arePrintable_cons, arePrintable_nil, arePrintable_endLine,
      arePrintable_writeText, arePrintable_blanks, marks]

/-! ## Data -/

namespace Writer

/-- Whether a value has no parts, so that it is written on the line of what is in front of it. -/
def isFlat : Json → Bool
  | .null | .bool _ | .string _ | .array [] | .object [] => true
  | _ => false

/-! The equations below hold by computation.  The ones that Lean derives for four functions
that call each other take long. -/

/-- A value without parts is written like an item. -/
theorem writeValue_of_isFlat {value : Json} (flat : isFlat value = true) (indent : Nat) :
    writeValue indent value = writeItem indent value := by
  match value, flat with
  | .null, _ | .bool true, _ | .bool false, _ | .string _, _ | .array [], _ | .object [], _ => rfl

section

variable (indent : Nat) (first : List Char) (text key : String) (item value : Json)
  (items : List Json) (entry : String × Json) (entries : List (String × Json))

theorem writeItem_string :
    writeItem indent (.string text) = ' ' :: endLine (writeText (indent + 2) text) :=
  rfl

theorem writeItem_array :
    writeItem indent (.array (item :: items)) = writeItems (indent + 2) [' '] (item :: items) :=
  rfl

theorem writeItem_object :
    writeItem indent (.object (entry :: entries)) =
      writeEntries (indent + 2) [' '] (entry :: entries) :=
  rfl

theorem writeValue_array :
    writeValue indent (.array (item :: items)) =
      '\n' :: writeItems indent (blanks indent) (item :: items) :=
  rfl

theorem writeValue_object :
    writeValue indent (.object (entry :: entries)) =
      '\n' :: writeEntries (indent + 2) (blanks (indent + 2)) (entry :: entries) :=
  rfl

theorem writeItems_cons :
    writeItems indent first (item :: items) =
      first ++ '-' :: writeItem indent item ++ writeItems indent (blanks indent) items :=
  rfl

theorem writeEntries_cons :
    writeEntries indent first ((key, value) :: entries) =
      first ++ writeKey indent key ++
        (if isSimpleKey key then writeValue indent value else writeItem indent value) ++
        writeEntries indent (blanks indent) entries :=
  rfl

/-- What stands in front of the first item is written there. -/
theorem writeItems_eq_append :
    writeItems indent first (item :: items) = first ++ writeItems indent [] (item :: items) := by
  simp [writeItems_cons]

theorem writeEntries_eq_append :
    writeEntries indent first (entry :: entries) =
      first ++ writeEntries indent [] (entry :: entries) := by
  obtain ⟨key, value⟩ := entry
  simp [writeEntries_cons]

end

end Writer

theorem arePrintable_writeItem_of_isFlat {value : Json} (flat : isFlat value = true)
    (indent : Nat) : ArePrintable (writeItem indent value) := by
  have words : ∀ word ∈ [" null\n", " true\n", " false\n", " []\n"], ArePrintable word.toList := by
    decide
  match value, flat with
  | .null, _ | .bool true, _ | .bool false, _ | .array [], _ => exact words _ (by decide)
  | .object [], _ => exact (by decide : ArePrintable [' ', '\x7b', '\x7d', '\n'])
  | .string text, _ =>
      rw [writeItem_string]
      exact arePrintable_cons.mpr ⟨by decide, arePrintable_endLine (arePrintable_writeText _ text)⟩

mutual

theorem arePrintable_writeValue (indent bound : Nat) :
    (value : Json) → value.fits bound = true → ArePrintable (writeValue indent value)
  | .null, _ | .bool true, _ | .bool false, _ | .string _, _ | .array [], _ | .object [], _ => by
      rw [writeValue_of_isFlat rfl]
      exact arePrintable_writeItem_of_isFlat rfl indent
  | .number _, fits => by cases bound <;> cases fits
  | .array (item :: rest), fits => by
      cases bound with
      | zero => cases fits
      | succ bound =>
          rw [writeValue_array]
          exact arePrintable_cons.mpr ⟨by decide, arePrintable_writeItems indent bound
            (blanks indent) (arePrintable_blanks indent) (item :: rest) fits⟩
  | .object (entry :: rest), fits => by
      cases bound with
      | zero => cases fits
      | succ bound =>
          rw [writeValue_object]
          exact arePrintable_cons.mpr ⟨by decide, arePrintable_writeEntries (indent + 2) bound
            (blanks (indent + 2)) (arePrintable_blanks (indent + 2)) (entry :: rest) fits⟩

theorem arePrintable_writeItem (indent bound : Nat) :
    (value : Json) → value.fits bound = true → ArePrintable (writeItem indent value)
  | .null, _ | .bool true, _ | .bool false, _ | .string _, _ | .array [], _ | .object [], _ =>
      arePrintable_writeItem_of_isFlat rfl indent
  | .number _, fits => by cases bound <;> cases fits
  | .array (item :: rest), fits => by
      cases bound with
      | zero => cases fits
      | succ bound =>
          rw [writeItem_array]
          exact arePrintable_writeItems (indent + 2) bound [' '] (by decide) (item :: rest) fits
  | .object (entry :: rest), fits => by
      cases bound with
      | zero => cases fits
      | succ bound =>
          rw [writeItem_object]
          exact arePrintable_writeEntries (indent + 2) bound [' '] (by decide) (entry :: rest) fits

theorem arePrintable_writeItems (indent bound : Nat) (first : List Char)
    (printable : ArePrintable first) :
    (items : List Json) → Json.allFit bound items = true →
      ArePrintable (writeItems indent first items)
  | [], _ => arePrintable_nil
  | item :: rest, fits => by
      obtain ⟨fitsItem, fitsRest⟩ := Bool.and_eq_true_iff.mp fits
      have others := arePrintable_writeItems indent bound (blanks indent)
        (arePrintable_blanks indent) rest fitsRest
      simp only [writeItems_cons, arePrintable_append, arePrintable_cons]
      exact ⟨⟨printable, by decide, arePrintable_writeItem indent bound item fitsItem⟩, others⟩

theorem arePrintable_writeEntries (indent bound : Nat) (first : List Char)
    (printable : ArePrintable first) :
    (entries : List (String × Json)) → Json.entriesFit bound entries = true →
      ArePrintable (writeEntries indent first entries)
  | [], _ => arePrintable_nil
  | (key, value) :: rest, fits => by
      obtain ⟨fitsValue, fitsRest⟩ := Bool.and_eq_true_iff.mp fits
      have others := arePrintable_writeEntries indent bound (blanks indent)
        (arePrintable_blanks indent) rest fitsRest
      have written : ArePrintable (if isSimpleKey key then writeValue indent value
          else writeItem indent value) := by
        split
        · exact arePrintable_writeValue indent bound value fitsValue
        · exact arePrintable_writeItem indent bound value fitsValue
      simp only [writeEntries_cons, arePrintable_append]
      exact ⟨⟨⟨printable, arePrintable_writeKey indent key⟩, written⟩, others⟩

end

end DeployTarget.Yaml
