import DeployTarget.Proofs.BlockLexer
import DeployTarget.Proofs.PrintableText

/-!
# The tokens of a written document

What is written for plain data is cut into the tokens of the data in blocks.  A value stands
behind the colon of a key, an item behind a mark of its own, and both lead the lexer to the
next line with their tokens read, whatever follows there, as long as it is indented no further
than the collection that holds them.
-/

namespace DeployTarget.Yaml.Lexer

open Writer

namespace Blocks

/-- Adds tokens in the order in which they are read. -/
def emitAll (blocks : Blocks) (tokens : List Token) : Blocks :=
  { blocks with tokens := tokens.reverse ++ blocks.tokens }

theorem emitAll_cons (blocks : Blocks) (token : Token) (tokens : List Token) :
    blocks.emitAll (token :: tokens) = (blocks.emit token).emitAll tokens := by
  simp [emitAll, emit]

theorem emitAll_append (blocks : Blocks) (first second : List Token) :
    blocks.emitAll (first ++ second) = (blocks.emitAll first).emitAll second := by
  simp [emitAll]

@[simp]
theorem indent_emitAll (blocks : Blocks) (tokens : List Token) :
    (blocks.emitAll tokens).indent = blocks.indent :=
  rfl

variable {blocks : Blocks} {column : Nat}

theorem opened_of_indent_eq (held : blocks.indent = column) (token : Token) :
    blocks.opened column token = blocks := by
  rw [opened, if_pos (Int.le_of_eq held.symm)]

theorem indent_opened (inside : blocks.indent ≤ column) (token : Token) :
    (blocks.opened column token).indent = column := by
  unfold opened
  split
  · omega
  · rfl

/-- A collection that is opened and closed leaves its tokens. -/
theorem closed_emitAll_opened (inside : blocks.indent < column) (token : Token)
    (tokens : List Token) :
    ((blocks.opened column token).emitAll tokens).closed =
      blocks.emitAll (token :: tokens ++ [.blockEnd]) := by
  have further : ¬ (column : Int) ≤ blocks.indent := by omega
  simp [opened, further, closed, emitAll]

theorem outer_emitAll_opened (inside : blocks.indent < column) (token : Token)
    (tokens : List Token) : ((blocks.opened column token).emitAll tokens).outer ≠ [] := by
  have further : ¬ (column : Int) ≤ blocks.indent := by omega
  simp [opened, further, emitAll]

end Blocks

/-! ## Lines -/

theorem Resumes.mono {column deeper : Nat} {rest : List Char} (resumes : Resumes column rest)
    (further : column ≤ deeper) : Resumes deeper rest := by
  obtain ⟨count, behind, less, starts, same⟩ := resumes
  exact ⟨count, behind, by omega, starts, same⟩

theorem resumes_blanks {column : Nat} {rest : List Char} (starts : StartsToken rest) :
    Resumes column (blanks column ++ rest) :=
  ⟨column, rest, Nat.le_refl column, starts, rfl⟩

theorem startsToken_writeText (text : String) (indent : Nat) (rest : List Char) :
    StartsToken (writeText indent text ++ rest) := by
  obtain ⟨c, tail, written, starts⟩ := Spot.exists_writeText_eq_cons text indent
  rw [written]
  exact starts _

theorem startsToken_endLine (text : String) (indent : Nat) (rest : List Char) :
    StartsToken (endLine (writeText indent text) ++ rest) := by
  unfold endLine
  split
  · exact startsToken_writeText text indent rest
  · rw [List.append_assoc]
    exact startsToken_writeText text indent _

theorem startsToken_writeKey (key : String) (indent : Nat) (rest : List Char) :
    StartsToken (writeKey indent key ++ rest) := by
  unfold writeKey
  split
  · rw [List.append_assoc]
    exact startsToken_writeText key (indent + 2) _
  · exact Spot.startsToken_cons (by decide) (by decide) _

theorem startsToken_writeItems (indent : Nat) (item : Json) (rest : List Json) (more : List Char) :
    StartsToken (writeItems indent [] (item :: rest) ++ more) := by
  simp only [writeItems_cons, List.nil_append, List.cons_append]
  exact Spot.startsToken_cons (by decide) (by decide) _

theorem startsToken_writeEntries (indent : Nat) (entry : String × Json)
    (rest : List (String × Json)) (more : List Char) :
    StartsToken (writeEntries indent [] (entry :: rest) ++ more) := by
  obtain ⟨key, value⟩ := entry
  simp only [writeEntries_cons, List.nil_append, List.append_assoc]
  exact startsToken_writeKey key indent _

theorem resumes_writeItems {indent : Nat} {more : List Char} (resumes : Resumes indent more)
    (items : List Json) : Resumes indent (writeItems indent (blanks indent) items ++ more) := by
  cases items with
  | nil => exact resumes
  | cons item rest =>
      rw [writeItems_eq_append, List.append_assoc]
      exact resumes_blanks (startsToken_writeItems indent item rest more)

theorem resumes_writeEntries {indent : Nat} {more : List Char} (resumes : Resumes indent more)
    (entries : List (String × Json)) :
    Resumes indent (writeEntries indent (blanks indent) entries ++ more) := by
  cases entries with
  | nil => exact resumes
  | cons entry rest =>
      rw [writeEntries_eq_append, List.append_assoc]
      exact resumes_blanks (startsToken_writeEntries indent entry rest more)

/-! ## Values, items and entries -/

open Spot

/-- A value behind the colon of an entry at a column is read. -/
def LeadsValue (indent : Nat) (value : Json) : Prop :=
  ∀ (blocks : Blocks) (column : Nat) (more : List Char), blocks.indent = indent → indent < column →
    Resumes indent more →
    Leads ⟨writeValue indent value ++ more, column, blocks, false⟩
      ⟨more, 0, blocks.emitAll (Block.tokens true value), true⟩

/-- A value behind a mark at a column is read. -/
def LeadsItem (indent : Nat) (value : Json) : Prop :=
  ∀ (blocks : Blocks) (more : List Char), blocks.indent = indent → Resumes indent more →
    Leads ⟨writeItem indent value ++ more, indent + 1, blocks, true⟩
      ⟨more, 0, blocks.emitAll (Block.tokens false value), true⟩

/-- The items of a list that is open at a column are read. -/
def LeadsItems (indent : Nat) (items : List Json) : Prop :=
  ∀ (blocks : Blocks) (more : List Char), blocks.indent = indent → Resumes indent more →
    Leads ⟨writeItems indent (blanks indent) items ++ more, 0, blocks, true⟩
      ⟨more, 0, blocks.emitAll (Block.itemTokens items), true⟩

/-- The entries of a mapping that is open at a column are read. -/
def LeadsEntries (indent : Nat) (entries : List (String × Json)) : Prop :=
  ∀ (blocks : Blocks) (more : List Char), blocks.indent = indent → Resumes indent more →
    Leads ⟨writeEntries indent (blanks indent) entries ++ more, 0, blocks, true⟩
      ⟨more, 0, blocks.emitAll (Block.entryTokens entries), true⟩

section

variable {blocks : Blocks} {column indent : Nat} {more : List Char} {allowed : Bool}

/-- One blank in front of a token leads to the token. -/
theorem leads_blank {rest : List Char} (starts : StartsToken rest) :
    Leads ⟨' ' :: rest, column, blocks, allowed⟩ ⟨rest, column + 1, blocks, allowed⟩ := by
  have blank : Leads ⟨blanks 1 ++ rest, column, blocks, allowed⟩
      ⟨rest, column + 1, blocks, allowed⟩ := leads_blanks starts
  exact blank

/-- The indentation of a line leads to its token. -/
theorem leads_indentation {rest : List Char} (starts : StartsToken rest) :
    Leads ⟨blanks column ++ rest, 0, blocks, allowed⟩ ⟨rest, column, blocks, allowed⟩ := by
  have indentation : Leads ⟨blanks column ++ rest, 0, blocks, allowed⟩
      ⟨rest, 0 + column, blocks, allowed⟩ := leads_blanks starts
  rwa [Nat.zero_add] at indentation

/-- A word that is no text is read behind a blank. -/
theorem leads_word (word : List Char) (allows : allowsPlain word = true) (nonempty : word ≠ [])
    (held : blocks.indent = indent) (inside : indent < column) (resumes : Resumes indent more) :
    Leads ⟨' ' :: (word ++ '\n' :: more), column, blocks, allowed⟩
      ⟨more, 0, blocks.emit (.scalar word true), true⟩ := by
  have plain := Lexeme.isPlain_of_allowsPlain allows
  have starts : StartsToken (word ++ '\n' :: more) := by
    obtain ⟨c, others, rfl⟩ := List.exists_cons_of_ne_nil nonempty
    exact startsToken_of_isPlain plain _
  exact (leads_blank starts).trans (leads_plain plain nonempty resumes held (by omega))

/-- A value without parts is read behind a blank, wherever it stands. -/
theorem leads_flat (value : Json) (flat : isFlat value = true) (loose : Bool)
    (held : blocks.indent = indent) (inside : indent < column) (resumes : Resumes indent more) :
    Leads ⟨writeItem indent value ++ more, column, blocks, allowed⟩
      ⟨more, 0, blocks.emitAll (Block.tokens loose value), true⟩ := by
  match value, flat with
  | .null, _ =>
      exact leads_word ['n', 'u', 'l', 'l'] (by decide) (by decide) held inside resumes
  | .bool true, _ =>
      exact leads_word ['t', 'r', 'u', 'e'] (by decide) (by decide) held inside resumes
  | .bool false, _ =>
      exact leads_word ['f', 'a', 'l', 's', 'e'] (by decide) (by decide) held inside resumes
  | .string text, _ =>
      rw [writeItem_string]
      exact (leads_blank (startsToken_endLine text (indent + 2) more)).trans
        (leads_text resumes held (Nat.lt_succ_of_lt inside))
  | .array [], _ =>
      have starts : StartsToken ('[' :: ']' :: '\n' :: more) :=
        startsToken_cons (by decide) (by decide) _
      exact (leads_blank starts).trans
        (leads_emptyFlow .list resumes held (Nat.lt_succ_of_lt inside))
  | .object [], _ =>
      have starts : StartsToken ('\x7b' :: '\x7d' :: '\n' :: more) :=
        startsToken_cons (by decide) (by decide) _
      exact (leads_blank starts).trans
        (leads_emptyFlow .mapping resumes held (Nat.lt_succ_of_lt inside))

end

theorem leadsValue_flat {value : Json} (flat : isFlat value = true) (indent : Nat) :
    LeadsValue indent value := by
  intro blocks column more held inside resumes
  rw [writeValue_of_isFlat flat]
  exact leads_flat value flat true held inside resumes

theorem leadsItem_flat {value : Json} (flat : isFlat value = true) (indent : Nat) :
    LeadsItem indent value :=
  fun _ _ held resumes => leads_flat value flat false held (Nat.lt_succ_self indent) resumes

/-- A collection that is indented further ends in front of the next line. -/
theorem leads_end {blocks : Blocks} {indent : Nat} {more : List Char}
    (held : blocks.indent = indent) (resumes : Resumes indent more) (token : Token)
    (tokens : List Token) :
    Leads ⟨more, 0, (blocks.opened (indent + 2) token).emitAll tokens, true⟩
      ⟨more, 0, blocks.emitAll (token :: tokens ++ [.blockEnd]), true⟩ := by
  have further : blocks.indent < (indent + 2 : Nat) := by omega
  rw [← Blocks.closed_emitAll_opened further]
  refine leads_closed resumes ?_ (Blocks.outer_emitAll_opened further token tokens)
  rw [Blocks.indent_emitAll, Blocks.indent_opened (Int.le_of_lt further)]
  omega

/-! ## Lists -/

/-- An item always stands behind a blank. -/
theorem exists_writeItem_eq_cons (indent : Nat) {value : Json} {bound : Nat}
    (fits : value.fits bound = true) : ∃ rest, writeItem indent value = ' ' :: rest := by
  match value, fits with
  | .null, _ | .bool true, _ | .bool false, _ | .string _, _ | .array [], _ | .object [], _ =>
      exact ⟨_, rfl⟩
  | .number _, fits => cases bound <;> cases fits
  | .array (item :: rest), _ =>
      exact ⟨_, rfl⟩
  | .object ((key, value) :: rest), _ =>
      exact ⟨_, rfl⟩

section

variable {blocks : Blocks} {indent bound : Nat} {more : List Char}

/-- The first item opens its list, and the other ones follow. -/
theorem leads_firstItem {item : Json} {rest : List Json} (fits : item.fits bound = true)
    (readsItem : LeadsItem indent item) (readsRest : LeadsItems indent rest)
    (inside : blocks.indent ≤ indent) (resumes : Resumes indent more) :
    Leads ⟨writeItems indent [] (item :: rest) ++ more, indent, blocks, true⟩
      ⟨more, 0, (blocks.opened indent .blockSequenceStart).emitAll
        (Block.itemTokens (item :: rest)), true⟩ := by
  obtain ⟨tail, begins⟩ := exists_writeItem_eq_cons indent fits
  have held := Blocks.indent_opened inside .blockSequenceStart
  have written : writeItems indent [] (item :: rest) ++ more =
      '-' :: ' ' :: (tail ++ (writeItems indent (blanks indent) rest ++ more)) := by
    simp [writeItems_cons, begins]
  rw [written]
  refine (leads_mark .item inside).trans ?_
  rw [Block.itemTokens, Blocks.emitAll_append, Blocks.emitAll_cons, ← List.cons_append, ← begins]
  exact (readsItem ((blocks.opened indent .blockSequenceStart).emit .blockEntry) _ held
    (resumes_writeItems resumes rest)).trans (readsRest _ more held resumes)

theorem leadsItems_cons {item : Json} {rest : List Json} (fits : item.fits bound = true)
    (readsItem : LeadsItem indent item) (readsRest : LeadsItems indent rest) :
    LeadsItems indent (item :: rest) := by
  intro blocks more held resumes
  have first := leads_firstItem fits readsItem readsRest (Int.le_of_eq held) resumes
  rw [Blocks.opened_of_indent_eq held] at first
  rw [writeItems_eq_append, List.append_assoc]
  exact (leads_indentation (startsToken_writeItems indent item rest more)).trans first

/-- The items of a list in an entry stand below its key. -/
theorem leadsValue_array {item : Json} {rest : List Json}
    (reads : LeadsItems indent (item :: rest)) :
    LeadsValue indent (.array (item :: rest)) := by
  intro blocks column more held inside resumes
  have written : writeValue indent (.array (item :: rest)) ++ more =
      '\n' :: (writeItems indent (blanks indent) (item :: rest) ++ more) := by
    rw [writeValue_array, List.cons_append]
  rw [written]
  exact (leads_line (resumes_writeItems resumes (item :: rest))).trans
    (reads blocks more held resumes)

/-- The items of a list in a list are indented further. -/
theorem leadsItem_array {item : Json} {rest : List Json} (fits : item.fits bound = true)
    (readsItem : LeadsItem (indent + 2) item) (readsRest : LeadsItems (indent + 2) rest) :
    LeadsItem indent (.array (item :: rest)) := by
  intro blocks more held resumes
  have written : writeItem indent (.array (item :: rest)) ++ more =
      ' ' :: (writeItems (indent + 2) [] (item :: rest) ++ more) := by
    rw [writeItem_array, writeItems_eq_append, List.append_assoc]
    rfl
  have further : blocks.indent < (indent + 2 : Nat) := by omega
  have first := leads_firstItem fits readsItem readsRest (Int.le_of_lt further)
    (resumes.mono (by omega))
  rw [written]
  exact (leads_blank (startsToken_writeItems (indent + 2) item rest more)).trans
    (first.trans (leads_end held resumes _ _))

end

/-! ## Mappings -/

theorem endsWord_writeValue (indent : Nat) {value : Json} {bound : Nat}
    (fits : value.fits bound = true) (rest : List Char) :
    endsWord (writeValue indent value ++ rest) = true := by
  cases value with
  | null | string _ => rfl
  | bool value => cases value <;> rfl
  | number _ => cases bound <;> cases fits
  | array items => cases items <;> rfl
  | object entries => cases entries <;> rfl

section

variable {blocks : Blocks} {indent bound : Nat} {more : List Char} {key : String} {value : Json}

theorem leads_simpleEntry (simple : isSimpleKey key = true) (fits : value.fits bound = true)
    (reads : LeadsValue indent value) (inside : blocks.indent ≤ indent)
    (resumes : Resumes indent more) :
    Leads ⟨writeKey indent key ++ (writeValue indent value ++ more), indent, blocks, true⟩
      ⟨more, 0, (blocks.opened indent .blockMappingStart).emitAll
        (.key :: Block.textToken key :: .value :: Block.tokens true value), true⟩ := by
  have written : writeKey indent key ++ (writeValue indent value ++ more) =
      writeText (indent + 2) key ++ ':' :: (writeValue indent value ++ more) := by
    simp [writeKey, simple]
  rw [written]
  refine (leads_simpleKey simple (endsWord_writeValue indent fits more) inside indent).trans ?_
  rw [Blocks.emitAll_cons, Blocks.emitAll_cons, Blocks.emitAll_cons]
  exact reads _ (indent + (writeText (indent + 2) key).length + 1) more
    (Blocks.indent_opened inside _) (by omega) resumes

/-- A marked key stands on lines of its own, and its value behind a mark. -/
theorem leads_markedEntry (marked : isSimpleKey key = false) (fits : value.fits bound = true)
    (reads : LeadsItem indent value) (inside : blocks.indent ≤ indent)
    (resumes : Resumes indent more) :
    Leads ⟨writeKey indent key ++ (writeItem indent value ++ more), indent, blocks, true⟩
      ⟨more, 0, (blocks.opened indent .blockMappingStart).emitAll
        (.key :: Block.textToken key :: .value :: Block.tokens false value), true⟩ := by
  obtain ⟨tail, begins⟩ := exists_writeItem_eq_cons indent fits
  have written : writeKey indent key ++ (writeItem indent value ++ more) =
      '?' :: ' ' :: (endLine (writeText (indent + 2) key) ++
        (blanks indent ++ ':' :: ' ' :: (tail ++ more))) := by
    simp [writeKey, marked, begins]
  have colon : StartsToken (':' :: ' ' :: (tail ++ more)) :=
    startsToken_cons (by decide) (by decide) _
  have held := Blocks.indent_opened inside .blockMappingStart
  have heldKey : ((blocks.opened indent .blockMappingStart).emit .key).indent = indent := held
  have heldText : (((blocks.opened indent .blockMappingStart).emit .key).emit
      (Block.textToken key)).indent = indent := held
  rw [written]
  refine (leads_mark .key inside).trans ?_
  refine (leads_blank (startsToken_endLine key (indent + 2) _)).trans ?_
  have behind : indent < indent + 1 + 1 := by omega
  refine (leads_text (resumes_blanks colon) heldKey behind).trans ?_
  refine (leads_indentation colon).trans ?_
  refine (leads_mark .value (Int.le_of_eq heldText)).trans ?_
  rw [Blocks.opened_of_indent_eq heldText, Blocks.emitAll_cons, Blocks.emitAll_cons,
    Blocks.emitAll_cons, ← List.cons_append, ← begins]
  exact reads ((((blocks.opened indent .blockMappingStart).emit .key).emit
    (Block.textToken key)).emit .value) more held resumes

theorem leads_entry (fits : value.fits bound = true) (readsValue : LeadsValue indent value)
    (readsItem : LeadsItem indent value) (inside : blocks.indent ≤ indent)
    (resumes : Resumes indent more) :
    Leads ⟨writeKey indent key ++ ((if isSimpleKey key then writeValue indent value
        else writeItem indent value) ++ more), indent, blocks, true⟩
      ⟨more, 0, (blocks.opened indent .blockMappingStart).emitAll
        (.key :: Block.textToken key :: .value :: Block.tokens (isSimpleKey key) value), true⟩ := by
  cases simple : isSimpleKey key with
  | true => exact leads_simpleEntry simple fits readsValue inside resumes
  | false => exact leads_markedEntry simple fits readsItem inside resumes

theorem leads_firstEntry (key : String) {rest : List (String × Json)}
    (fits : value.fits bound = true) (readsValue : LeadsValue indent value)
    (readsItem : LeadsItem indent value) (readsRest : LeadsEntries indent rest)
    (inside : blocks.indent ≤ indent) (resumes : Resumes indent more) :
    Leads ⟨writeEntries indent [] ((key, value) :: rest) ++ more, indent, blocks, true⟩
      ⟨more, 0, (blocks.opened indent .blockMappingStart).emitAll
        (Block.entryTokens ((key, value) :: rest)), true⟩ := by
  have held := Blocks.indent_opened inside .blockMappingStart
  have tokens : Block.entryTokens ((key, value) :: rest) =
      (.key :: Block.textToken key :: .value :: Block.tokens (isSimpleKey key) value) ++
        Block.entryTokens rest := by
    simp [Block.entryTokens]
  rw [tokens, Blocks.emitAll_append, writeEntries_cons]
  simp only [List.nil_append, List.append_assoc]
  exact (leads_entry fits readsValue readsItem inside (resumes_writeEntries resumes rest)).trans
    (readsRest _ more held resumes)

theorem leadsEntries_cons {rest : List (String × Json)} (fits : value.fits bound = true)
    (readsValue : LeadsValue indent value) (readsItem : LeadsItem indent value)
    (readsRest : LeadsEntries indent rest) : LeadsEntries indent ((key, value) :: rest) := by
  intro blocks more held resumes
  have first := leads_firstEntry key fits readsValue readsItem readsRest (Int.le_of_eq held)
    resumes
  rw [Blocks.opened_of_indent_eq held] at first
  rw [writeEntries_eq_append, List.append_assoc]
  exact (leads_indentation (startsToken_writeEntries indent (key, value) rest more)).trans first

/-- The entries of a mapping in an entry are indented further than its key. -/
theorem leadsValue_object {rest : List (String × Json)} (fits : value.fits bound = true)
    (readsValue : LeadsValue (indent + 2) value) (readsItem : LeadsItem (indent + 2) value)
    (readsRest : LeadsEntries (indent + 2) rest) :
    LeadsValue indent (.object ((key, value) :: rest)) := by
  intro blocks column more held inside resumes
  have further : blocks.indent < (indent + 2 : Nat) := by omega
  have deeper : Resumes (indent + 2) more := resumes.mono (by omega)
  have first := leads_firstEntry key fits readsValue readsItem readsRest
    (Int.le_of_lt further) deeper
  have written : writeValue indent (.object ((key, value) :: rest)) ++ more = '\n' ::
      (blanks (indent + 2) ++ (writeEntries (indent + 2) [] ((key, value) :: rest) ++ more)) := by
    rw [writeValue_object, writeEntries_eq_append, List.cons_append, List.append_assoc]
  have starts := startsToken_writeEntries (indent + 2) (key, value) rest more
  rw [written, Block.tokens]
  · exact (leads_line (resumes_blanks starts)).trans
      ((leads_indentation starts).trans (first.trans (leads_end held resumes _ _)))
  · rintro ⟨⟩

/-- The first entry of a mapping in a list stands behind the mark of the item. -/
theorem leadsItem_object {rest : List (String × Json)} (fits : value.fits bound = true)
    (readsValue : LeadsValue (indent + 2) value) (readsItem : LeadsItem (indent + 2) value)
    (readsRest : LeadsEntries (indent + 2) rest) :
    LeadsItem indent (.object ((key, value) :: rest)) := by
  intro blocks more held resumes
  have further : blocks.indent < (indent + 2 : Nat) := by omega
  have first := leads_firstEntry key fits readsValue readsItem readsRest
    (Int.le_of_lt further) (resumes.mono (by omega))
  have written : writeItem indent (.object ((key, value) :: rest)) ++ more =
      ' ' :: (writeEntries (indent + 2) [] ((key, value) :: rest) ++ more) := by
    rw [writeItem_object, writeEntries_eq_append, List.append_assoc]
    rfl
  rw [written, Block.tokens]
  · exact (leads_blank (startsToken_writeEntries (indent + 2) (key, value) rest more)).trans
      (first.trans (leads_end held resumes _ _))
  · rintro ⟨⟩

end

/-! ## Data -/

mutual

theorem leadsValue (indent bound : Nat) :
    (value : Json) → value.fits bound = true → LeadsValue indent value
  | .null, _ | .bool true, _ | .bool false, _ | .string _, _ | .array [], _ | .object [], _ =>
      leadsValue_flat rfl indent
  | .number _, fits => by cases bound <;> cases fits
  | .array (item :: rest), fits => by
      cases bound with
      | zero => cases fits
      | succ bound => exact leadsValue_array (leadsItems indent bound (item :: rest) fits)
  | .object ((key, value) :: rest), fits => by
      cases bound with
      | zero => cases fits
      | succ bound =>
          obtain ⟨fitsValue, fitsRest⟩ := Bool.and_eq_true_iff.mp fits
          exact leadsValue_object fitsValue (leadsValue (indent + 2) bound value fitsValue)
            (leadsItem (indent + 2) bound value fitsValue)
            (leadsEntries (indent + 2) bound rest fitsRest)

theorem leadsItem (indent bound : Nat) :
    (value : Json) → value.fits bound = true → LeadsItem indent value
  | .null, _ | .bool true, _ | .bool false, _ | .string _, _ | .array [], _ | .object [], _ =>
      leadsItem_flat rfl indent
  | .number _, fits => by cases bound <;> cases fits
  | .array (item :: rest), fits => by
      cases bound with
      | zero => cases fits
      | succ bound =>
          obtain ⟨fitsItem, fitsRest⟩ := Bool.and_eq_true_iff.mp fits
          exact leadsItem_array fitsItem (leadsItem (indent + 2) bound item fitsItem)
            (leadsItems (indent + 2) bound rest fitsRest)
  | .object ((key, value) :: rest), fits => by
      cases bound with
      | zero => cases fits
      | succ bound =>
          obtain ⟨fitsValue, fitsRest⟩ := Bool.and_eq_true_iff.mp fits
          exact leadsItem_object fitsValue (leadsValue (indent + 2) bound value fitsValue)
            (leadsItem (indent + 2) bound value fitsValue)
            (leadsEntries (indent + 2) bound rest fitsRest)

theorem leadsItems (indent bound : Nat) :
    (items : List Json) → Json.allFit bound items = true → LeadsItems indent items
  | [], _ => fun _ more _ _ => Leads.refl ⟨more, 0, _, true⟩
  | item :: rest, fits => by
      obtain ⟨fitsItem, fitsRest⟩ := Bool.and_eq_true_iff.mp fits
      exact leadsItems_cons fitsItem (leadsItem indent bound item fitsItem)
        (leadsItems indent bound rest fitsRest)

theorem leadsEntries (indent bound : Nat) :
    (entries : List (String × Json)) → Json.entriesFit bound entries = true →
      LeadsEntries indent entries
  | [], _ => fun _ more _ _ => Leads.refl ⟨more, 0, _, true⟩
  | (key, value) :: rest, fits => by
      obtain ⟨fitsValue, fitsRest⟩ := Bool.and_eq_true_iff.mp fits
      exact leadsEntries_cons fitsValue (leadsValue indent bound value fitsValue)
        (leadsItem indent bound value fitsValue) (leadsEntries indent bound rest fitsRest)

end

/-! ## Documents -/

theorem tokens?_end {blocks : Blocks} (held : blocks.indent = (0 : Nat))
    (outermost : blocks.outer = [-1]) (index line fuel : Nat) :
    State.tokens? (fuel + 2) (state ⟨[], 0, blocks, true⟩ index line) =
      some (.streamEnd :: .blockEnd :: blocks.tokens).reverse := by
  have starts : StartsToken [] := ⟨by rintro c ⟨⟩, by simp⟩
  obtain ⟨tokens, indent, outer⟩ := blocks
  obtain rfl : indent = 0 := held
  obtain rfl : outer = [-1] := outermost
  rw [State.tokens?, approach?_token starts, state, unroll_inside (by simp)]
  rfl

/-- The lexer starts at the first token of a text that begins with no mark of the byte order. -/
theorem ofText_eq_state {text : List Char} (unmarked : text.head? ≠ some byteOrderMark) :
    State.ofText text = state ⟨text, 0, ⟨[], -1, []⟩, true⟩ 0 0 := by
  rw [State.ofText, if_neg unmarked]
  rfl

/-- A mapping that is a document is read to its end. -/
theorem tokens?_document {key : String} {value : Json} {rest : List (String × Json)} {bound : Nat}
    (fitsValue : value.fits bound = true) (fitsRest : Json.entriesFit bound rest = true)
    (fuel : Nat) (enough : (writeDocument (.object ((key, value) :: rest))).length + 2 ≤ fuel) :
    State.tokens? fuel
        (state ⟨writeDocument (.object ((key, value) :: rest)), 0, ⟨[], -1, []⟩, true⟩ 0 0) =
      some (Block.tokens false (.object ((key, value) :: rest)) ++ [.streamEnd]) := by
  have resumes : Resumes 0 [] :=
    ⟨0, [], Nat.le_refl 0, ⟨by rintro c ⟨⟩, by simp⟩, rfl⟩
  have outside : (⟨[], -1, []⟩ : Blocks).indent ≤ (0 : Nat) := by decide
  have leads := leads_firstEntry key fitsValue (leadsValue 0 bound value fitsValue)
    (leadsItem 0 bound value fitsValue) (leadsEntries 0 bound rest fitsRest) outside resumes
  rw [List.append_nil] at leads
  obtain ⟨index, line, fuel, enough, same⟩ := leads 0 0 fuel enough
  obtain ⟨fuel, rfl⟩ : ∃ less, fuel = less + 2 := ⟨fuel - 2, by simp only at enough; omega⟩
  refine same.trans ((tokens?_end rfl rfl index line fuel).trans ?_)
  simp [Block.tokens, Blocks.opened, Blocks.emitAll]

end DeployTarget.Yaml.Lexer

namespace DeployTarget.Yaml

theorem Token.ofText?_write {entries : List (String × Json)} {bound : Nat} (nonempty : entries ≠ [])
    (fits : Json.entriesFit bound entries = true) :
    Token.ofText? (write (.object entries)) =
      some (Block.tokens false (.object entries) ++ [.streamEnd]) := by
  obtain ⟨⟨key, value⟩, rest, rfl⟩ := List.exists_cons_of_ne_nil nonempty
  have printable : ArePrintable (Writer.writeDocument (.object ((key, value) :: rest))) :=
    arePrintable_writeEntries 0 bound [] (by decide) _ fits
  have allowed : (Writer.writeDocument (.object ((key, value) :: rest))).all isAllowed = true :=
    List.all_eq_true.mpr fun c member => (isAllowed_of_isPrintable (printable c member)).1
  have unmarked : (Writer.writeDocument (.object ((key, value) :: rest))).head? ≠
      some byteOrderMark := fun marked =>
    (isAllowed_of_isPrintable (printable _ (List.mem_of_mem_head? marked))).2 rfl
  obtain ⟨fitsValue, fitsRest⟩ := Bool.and_eq_true_iff.mp fits
  rw [Token.ofText?, write]
  simp only [String.toList_ofList, allowed, if_true, Lexer.ofText_eq_state unmarked]
  exact Lexer.tokens?_document fitsValue fitsRest _ (Nat.le_refl _)

end DeployTarget.Yaml
