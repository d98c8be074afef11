import DeployTarget.Proofs.FlowLexer

/-!
# Compact text as a document

Compact text is a document too, but escapes less than a document needs: some characters that no
document may hold stand for themselves in it, and so do three line breaks.  It is read if and only
if all of its texts allow that, and then as the data with the lines of its texts folded.
-/

namespace DeployTarget.Yaml

open Lexer.Flow.Spot (isUnmarked)

namespace Flow

/-! ## Characters -/

/-- Whether what compact text writes for a character may stand in a document. -/
def isWritableCharacter (c : Char) : Bool :=
  c.toNat < 32 || isAllowed c

def isWritable (text : String) : Bool :=
  text.toList.all isWritableCharacter

theorem all_isAllowed_escape (c : Char) :
    (Json.escape c).all isAllowed = isWritableCharacter c := by
  have digits : ∀ code < 32, ['\\', 'u', '0', '0', Json.hexDigit (code / 16),
      Json.hexDigit code].all isAllowed = true := by
    decide
  unfold Json.escape
  split_ifs with quote backslash feed carriage tab backspace formFeed control
  · rw [quote]
    rfl
  · rw [backslash]
    rfl
  · rw [feed]
    rfl
  · rw [carriage]
    rfl
  · rw [tab]
    rfl
  · rw [isWritableCharacter, backspace]
    rfl
  · rw [isWritableCharacter, formFeed]
    rfl
  · rw [isWritableCharacter, digits _ control, decide_eq_true control, Bool.true_or]
  · rw [isWritableCharacter, decide_eq_false control, Bool.false_or, List.all_cons, List.all_nil,
      Bool.and_true]

theorem all_isAllowed_quote (text : String) :
    (Json.quote text).all isAllowed = isWritable text := by
  have quote : isAllowed '"' = true := by decide
  simp [Json.quote, isWritable, List.all_flatMap, all_isAllowed_escape, quote]

mutual

/-- The characters of compact text may stand in a document if and only if those of its texts
may. -/
theorem all_isAllowed_characters (bound : Nat) : (value : Json) → value.fits bound = true →
    value.characters.all isAllowed = value.everyText isWritable isWritable
  | .null, _ | .bool true, _ | .bool false, _ | .array [], _ | .object [], _ => by
      simp only [Json.characters, Json.everyText, Json.everyTextOfItems, Json.everyTextOfEntries]
      decide
  | .number _, fits => by cases bound <;> cases fits
  | .string text, _ => all_isAllowed_quote text
  | .array (item :: items), fits => by
      cases bound with
      | zero => cases fits
      | succ bound =>
          obtain ⟨fitsItem, fitsItems⟩ := Bool.and_eq_true_iff.mp fits
          have bracket : isAllowed '[' = true := by decide
          rw [Json.characters, Json.everyText, Json.everyTextOfItems, List.all_append,
            List.all_cons, bracket, all_isAllowed_characters bound item fitsItem,
            all_isAllowed_remainingItems bound items fitsItems, Bool.true_and]
  | .object ((key, value) :: entries), fits => by
      cases bound with
      | zero => cases fits
      | succ bound =>
          obtain ⟨fitsValue, fitsEntries⟩ := Bool.and_eq_true_iff.mp fits
          have brace : isAllowed '\x7b' = true := by decide
          have colon : isAllowed ':' = true := by decide
          rw [Json.characters, Json.everyText, Json.everyTextOfEntries, List.all_append,
            List.all_append, List.all_cons, List.all_cons, brace, colon, all_isAllowed_quote,
            all_isAllowed_characters bound value fitsValue,
            all_isAllowed_remainingEntries bound entries fitsEntries, Bool.true_and, Bool.true_and]

theorem all_isAllowed_remainingItems (bound : Nat) : (items : List Json) →
    Json.allFit bound items = true →
    (Json.remainingItems items).all isAllowed = Json.everyTextOfItems isWritable isWritable items
  | [], _ => rfl
  | item :: items, fits => by
      obtain ⟨fitsItem, fitsItems⟩ := Bool.and_eq_true_iff.mp fits
      have comma : isAllowed ',' = true := by decide
      rw [Json.remainingItems, Json.everyTextOfItems, List.all_append, List.all_cons, comma,
        all_isAllowed_characters bound item fitsItem,
        all_isAllowed_remainingItems bound items fitsItems, Bool.true_and]

theorem all_isAllowed_remainingEntries (bound : Nat) : (entries : List (String × Json)) →
    Json.entriesFit bound entries = true →
    (Json.remainingEntries entries).all isAllowed =
      Json.everyTextOfEntries isWritable isWritable entries
  | [], _ => rfl
  | (key, value) :: entries, fits => by
      obtain ⟨fitsValue, fitsEntries⟩ := Bool.and_eq_true_iff.mp fits
      have comma : isAllowed ',' = true := by decide
      have colon : isAllowed ':' = true := by decide
      rw [Json.remainingEntries, Json.everyTextOfEntries, List.all_append, List.all_append,
        List.all_cons, List.all_cons, comma, colon, all_isAllowed_quote,
        all_isAllowed_characters bound value fitsValue,
        all_isAllowed_remainingEntries bound entries fitsEntries, Bool.true_and, Bool.true_and]

end

/-! ## Documents -/

/-- Whether a text that is a value may be written into compact text that is read. -/
def isReadable (text : String) : Bool :=
  isWritable text && isUnmarked text

/-- Whether a text may be written there as a key. -/
def isReadableKey (key : String) : Bool :=
  isWritable key && isNear key

/-- Whether a text that is a value is read from compact text as itself. -/
def isKept (text : String) : Bool :=
  isReadable text && Lexeme.keepsLines text.toList

theorem holdsMark_of_any_eq_false {text : List Char}
    (noBreak : text.any Lexeme.isRawBreak = false) : Lexeme.holdsMark text = false := by
  induction text with
  | nil => rfl
  | cons c text ih =>
      obtain ⟨first, others⟩ := Bool.or_eq_false_iff.mp noBreak
      rw [Lexeme.holdsMark, first, ih others]
      rfl

/-- A key that is near stands on one line, on which there is no mark of a document. -/
theorem isUnmarked_of_isNear {key : String} (near : isNear key = true) :
    isUnmarked key = true := by
  have noBreak := (Bool.and_eq_true_iff.mp near).1
  rw [Bool.not_eq_true'] at noBreak
  rw [isUnmarked, holdsMark_of_any_eq_false noBreak]
  rfl

theorem everyText_isReadable (value : Json) :
    value.everyText isReadable isReadableKey =
      (value.everyText isWritable isWritable && (value.everyText isUnmarked isUnmarked &&
        value.everyText (fun _ => true) isNear)) := by
  have texts : isReadable = fun text => isWritable text && (isUnmarked text && true) := by
    funext text
    rw [isReadable, Bool.and_true]
  have keys : isReadableKey = fun key => isWritable key && (isUnmarked key && isNear key) := by
    funext key
    rw [isReadableKey]
    cases near : isNear key with
    | false => rw [Bool.and_false, Bool.and_false, Bool.and_false]
    | true => rw [isUnmarked_of_isNear near, Bool.and_self, Bool.and_true]
  rw [texts, keys, Json.everyText_and, Json.everyText_and]

/-- Data is read as itself if it is read and if nothing of it is folded. -/
theorem everyText_isKept (value : Json) :
    value.everyText isKept isReadableKey = true ↔
      value.everyText isReadable isReadableKey = true ∧ value.mapTexts refold = value := by
  have keys : isReadableKey = fun key => isReadableKey key && true := by
    funext key
    rw [Bool.and_true]
  rw [Json.mapTexts_eq_self_iff refold_eq_self_iff, ← Bool.and_eq_true, ← Json.everyText_and,
    ← keys]
  rfl

end Flow

theorem Token.ofText?_compact {entries : List (String × Json)} {bound : Nat}
    (fits : (Json.object entries).fits bound = true) :
    ofText? (Json.object entries).compact =
      if (Json.object entries).everyText Flow.isWritable Flow.isWritable &&
          (Json.object entries).everyText isUnmarked isUnmarked then
        some (Flow.tokens (.object entries) ++ [.streamEnd])
      else none := by
  have characters : (Json.object entries).compact.toList = (Json.object entries).characters :=
    String.toList_ofList
  have noMark : (Json.object entries).characters.head? ≠ some byteOrderMark := by
    cases entries <;> simp [Json.characters, byteOrderMark]
  have start : Lexer.State.ofText (Json.object entries).characters =
      Lexer.State.start (Json.object entries).characters := by
    rw [Lexer.State.ofText, if_neg noMark]
  rw [ofText?, characters, Flow.all_isAllowed_characters bound _ fits, start,
    Lexer.State.tokens?_characters entries fits]
  cases (Json.object entries).everyText Flow.isWritable Flow.isWritable <;> rfl

/-- The compact text of an object is read if and only if its texts are readable and no key of it
comes twice, and it is read as the object with its texts folded. -/
theorem Value.ofText?_compact {entries : List (String × Json)}
    (fits : (Json.object entries).fits Node.deepest = true) :
    (Node.ofText? (Json.object entries).compact >>= ofNode?) =
      if (Json.object entries).everyText Flow.isReadable Flow.isReadableKey &&
          (Json.object entries).isDistinct then
        some (ofJson ((Json.object entries).mapTexts refold))
      else none := by
  have faithful : IsFaithful Flow.noPlain := fun _ plain => by cases plain
  have fitsFolded : ((Json.object entries).mapTexts refold).fits Node.deepest = true :=
    (Json.fits_mapTexts refold _ _).trans fits
  have node := ofNode?_ofJson faithful Node.deepest _ fitsFolded
  rw [Json.isDistinct_mapTexts] at node
  rw [Node.ofText?, Token.ofText?_compact fits, Flow.everyText_isReadable]
  cases (Json.object entries).everyText Flow.isWritable Flow.isWritable with
  | false => rfl
  | true =>
      cases (Json.object entries).everyText isUnmarked isUnmarked with
      | false => rfl
      | true =>
          have tree := Node.ofTokens?_flow (.object entries) fits
          simp only [Bool.and_self, if_true, Option.bind_eq_bind, Option.bind_some, tree,
            Bool.true_and]
          cases (Json.object entries).everyText (fun _ => true) Flow.isNear with
          | false => rfl
          | true => exact node

end DeployTarget.Yaml
