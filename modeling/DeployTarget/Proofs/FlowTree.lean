import DeployTarget.Proofs.BlockTree
import DeployTarget.Proofs.DataTexts
import DeployTarget.Proofs.FoldedText

/-!
# The tree of compact text

The tokens of plain data in compact text: collections lie between brackets, commas stand between
items and entries, and texts are folded.  A key that the colon behind it is too far away from is
not marked as one; such tokens make up no tree, and all others make up that of the folded data.
-/

namespace DeployTarget.Yaml

/-- A text as it is read from compact text. -/
def refold (text : String) : String :=
  String.ofList (Lexeme.folded text.toList)

theorem refold_eq_self_iff (text : String) :
    refold text = text ↔ Lexeme.keepsLines text.toList = true := by
  rw [← Lexeme.folded_eq_self_iff, refold, ← String.toList_inj, String.toList_ofList]

namespace Flow

/-- Whether the colon behind a key is near enough for it to be known as one. -/
def isNear (key : String) : Bool :=
  !key.toList.any Lexeme.isRawBreak &&
    decide ((Json.quote key).length ≤ Lexer.State.longestKey)

/-- A key that is known as one holds no line break, so that nothing of it is folded. -/
theorem refold_of_isNear {key : String} (near : isNear key = true) : refold key = key := by
  have noBreak := (Bool.and_eq_true_iff.mp near).1
  rw [Bool.not_eq_true'] at noBreak
  exact (refold_eq_self_iff key).mpr (Lexeme.keepsLines_of_any_eq_false noBreak)

theorem isNear_eq_false {key : String} (long : Lexer.State.longestKey < key.length) :
    isNear key = false := by
  have shorter := Lexeme.length_le_flatMap_escape key.toList
  have far : ¬ (Json.quote key).length ≤ Lexer.State.longestKey := by
    rw [String.length_toList] at shorter
    simp only [Json.quote, List.length_append, List.length_cons]
    omega
  rw [isNear, decide_eq_false far, Bool.and_false]

/-- The mark of a key, where it is known as one. -/
def keyMark (key : String) : List Token :=
  if isNear key then [.key] else []

def textToken (text : String) : Token :=
  .scalar (Lexeme.folded text.toList) false

mutual

/-- The tokens of plain data in compact text. -/
def tokens : Json → List Token
  | .null => [.scalar ['n', 'u', 'l', 'l'] true]
  | .bool true => [.scalar ['t', 'r', 'u', 'e'] true]
  | .bool false => [.scalar ['f', 'a', 'l', 's', 'e'] true]
  | .number value => [.scalar value.characters true]
  | .string text => [textToken text]
  | .array [] => [.flowSequenceStart, .flowSequenceEnd]
  | .array (item :: rest) => .flowSequenceStart :: (tokens item ++ remainingItems rest)
  | .object [] => [.flowMappingStart, .flowMappingEnd]
  | .object ((key, value) :: rest) =>
      .flowMappingStart ::
        (keyMark key ++ textToken key :: .value :: (tokens value ++ remainingEntries rest))

/-- The tokens of the items of a list after its first, and of its end. -/
def remainingItems : List Json → List Token
  | [] => [.flowSequenceEnd]
  | item :: rest => .flowEntry :: (tokens item ++ remainingItems rest)

/-- The tokens of the entries of an object after its first, and of its end. -/
def remainingEntries : List (String × Json) → List Token
  | [] => [.flowMappingEnd]
  | (key, value) :: rest =>
      .flowEntry ::
        (keyMark key ++ textToken key :: .value :: (tokens value ++ remainingEntries rest))

end

theorem exists_tokens_eq_cons (value : Json) :
    ∃ first rest, tokens value = first :: rest ∧ Composer.beginsContent first = true := by
  cases value with
  | bool flag => cases flag <;> exact ⟨_, _, rfl, rfl⟩
  | array items => cases items <;> exact ⟨_, _, rfl, rfl⟩
  | object entries =>
      cases entries with
      | nil => exact ⟨_, _, rfl, rfl⟩
      | cons entry rest => exact ⟨_, _, rfl, rfl⟩
  | null | number | string => exact ⟨_, _, rfl, rfl⟩

/-! ## What is composed -/

/-- The node of a text between quotes. -/
def ofText (text : String) : Composed :=
  ⟨.scalar (refold text) false none, 1, 0, 0⟩

mutual

/-- The node of plain data in compact text. -/
def composed : Json → Composed
  | .null => ⟨.scalar "null" true none, 1, 0, 0⟩
  | .bool true => ⟨.scalar "true" true none, 1, 0, 0⟩
  | .bool false => ⟨.scalar "false" true none, 1, 0, 0⟩
  | .number value => ⟨.scalar value.text true none, 1, 0, 0⟩
  | .string text => ofText text
  | .array items => Composer.sequence none (composedItems items)
  | .object entries => Composer.mapping none (composedEntries entries)

def composedItems : List Json → List Composed
  | [] => []
  | item :: rest => composed item :: composedItems rest

def composedEntries : List (String × Json) → List (Composed × Composed)
  | [] => []
  | (key, value) :: rest => (ofText key, composed value) :: composedEntries rest

end

/-- No text is written plain. -/
def noPlain (_ : String) : Bool :=
  false

theorem shows_ofText (text : String) (bound : Nat) :
    (ofText text).Shows noPlain (.string (refold text)) bound :=
  ⟨rfl, rfl, Nat.zero_le bound⟩

mutual

/-- The node of plain data shows the data with its texts folded. -/
theorem shows_composed : (bound : Nat) → (value : Json) → value.fits bound = true →
    value.everyText (fun _ => true) isNear = true →
    (composed value).Shows noPlain (value.mapTexts refold) bound
  | _, .null, _, _ | _, .bool true, _, _ | _, .bool false, _, _ => ⟨rfl, rfl, Nat.zero_le _⟩
  | bound, .number _, fits, _ => by cases bound <;> cases fits
  | bound, .string text, _, _ => shows_ofText text bound
  | bound + 1, .array items, fits, near =>
      Composed.shows_sequence (showItems_composedItems bound items fits near)
  | bound + 1, .object entries, fits, near =>
      Composed.shows_mapping (showEntries_composedEntries bound entries fits near)

theorem showItems_composedItems : (bound : Nat) → (items : List Json) →
    Json.allFit bound items = true → Json.everyTextOfItems (fun _ => true) isNear items = true →
    Composed.ShowItems noPlain (composedItems items) (Json.mapTextsOfItems refold items) bound
  | _, [], _, _ => ⟨rfl, by simp [composedItems]⟩
  | bound, item :: rest, fits, near => by
      obtain ⟨fitsItem, fitsRest⟩ := Bool.and_eq_true_iff.mp fits
      obtain ⟨nearItem, nearRest⟩ := Bool.and_eq_true_iff.mp near
      exact Composed.showItems_cons (shows_composed bound item fitsItem nearItem)
        (showItems_composedItems bound rest fitsRest nearRest)

theorem showEntries_composedEntries : (bound : Nat) → (entries : List (String × Json)) →
    Json.entriesFit bound entries = true →
    Json.everyTextOfEntries (fun _ => true) isNear entries = true →
    Composed.ShowEntries noPlain (composedEntries entries) (Json.mapTextsOfEntries refold entries)
      bound
  | _, [], _, _ => ⟨rfl, by simp [composedEntries]⟩
  | bound, (key, value) :: rest, fits, near => by
      obtain ⟨fitsValue, fitsRest⟩ := Bool.and_eq_true_iff.mp fits
      obtain ⟨nearEntry, nearRest⟩ := Bool.and_eq_true_iff.mp near
      obtain ⟨nearKey, nearValue⟩ := Bool.and_eq_true_iff.mp nearEntry
      have showsKey := shows_ofText key 0
      rw [refold_of_isNear nearKey] at showsKey
      exact Composed.showEntries_cons showsKey (shows_composed bound value fitsValue nearValue)
        (showEntries_composedEntries bound rest fitsRest nearRest)

end

end Flow

namespace Composer

variable {handles : List (List Char × List Char)}
  {anchors : List (List Char × Option Composed)} {rest : List Token} {fuel : Nat}

/-! ## Single steps -/

theorem run_node_scalar (place : Place) (text : List Char) (plain : Bool) :
    (node handles (fuel + 2) place).run ⟨.scalar text plain :: rest, anchors⟩ =
      some (⟨.scalar (String.ofList text) plain none, 1, 0, 0⟩, ⟨rest, anchors⟩) :=
  rfl

theorem run_node_list (place : Place) :
    (node handles (fuel + 2) place).run ⟨.flowSequenceStart :: rest, anchors⟩ =
      (sequence none <$> flowItems handles fuel true).run ⟨rest, anchors⟩ :=
  rfl

theorem run_node_object (place : Place) :
    (node handles (fuel + 2) place).run ⟨.flowMappingStart :: rest, anchors⟩ =
      (mapping none <$> flowEntries handles fuel true).run ⟨rest, anchors⟩ :=
  rfl

/-- An item behind a comma is read as the first one is. -/
theorem run_flowItems_comma (more : rest.head? ≠ some .flowSequenceEnd) :
    (flowItems handles (fuel + 1) false).run ⟨.flowEntry :: rest, anchors⟩ =
      (flowItems handles (fuel + 1) true).run ⟨rest, anchors⟩ := by
  have noEnd : (accept .flowSequenceEnd).run ⟨.flowEntry :: rest, anchors⟩ =
      some (false, ⟨.flowEntry :: rest, anchors⟩) := run_accept_other (by simp)
  have noEndBehind : (accept .flowSequenceEnd).run ⟨rest, anchors⟩ =
      some (false, ⟨rest, anchors⟩) := run_accept_other more
  rw [flowItems, flowItems]
  simp [noEnd, noEndBehind]

/-- A token that begins a node is none of the others. -/
theorem run_accept_of_beginsContent {first token : Token} (begins : beginsContent first = true)
    (other : beginsContent token = false) :
    (accept token).run ⟨first :: rest, anchors⟩ = some (false, ⟨first :: rest, anchors⟩) := by
  refine run_accept_other ?_
  rintro ⟨⟩
  rw [begins] at other
  cases other

theorem run_flowItems_item {first : Token} (begins : beginsContent first = true) :
    (flowItems handles (fuel + 1) true).run ⟨first :: rest, anchors⟩ =
      (do
        let item ← node handles fuel .flow
        return item :: (← flowItems handles fuel false)).run ⟨first :: rest, anchors⟩ := by
  have noEnd : (accept .flowSequenceEnd).run ⟨first :: rest, anchors⟩ = _ :=
    run_accept_of_beginsContent begins rfl
  have noKey : (accept .key).run ⟨first :: rest, anchors⟩ = _ :=
    run_accept_of_beginsContent begins rfl
  rw [flowItems]
  simp [noEnd, noKey]

theorem run_flowEntries_comma (more : rest.head? ≠ some .flowMappingEnd) :
    (flowEntries handles (fuel + 1) false).run ⟨.flowEntry :: rest, anchors⟩ =
      (flowEntries handles (fuel + 1) true).run ⟨rest, anchors⟩ := by
  have noEnd : (accept .flowMappingEnd).run ⟨.flowEntry :: rest, anchors⟩ =
      some (false, ⟨.flowEntry :: rest, anchors⟩) := run_accept_other (by simp)
  have noEndBehind : (accept .flowMappingEnd).run ⟨rest, anchors⟩ =
      some (false, ⟨rest, anchors⟩) := run_accept_other more
  rw [flowEntries, flowEntries]
  simp [noEnd, noEndBehind]

theorem run_flowValue {first : Token} {stops : List Token} (present : first ∉ stops) :
    (flowValue handles (fuel + 2) stops).run ⟨.value :: first :: rest, anchors⟩ =
      (node handles fuel .flow).run ⟨first :: rest, anchors⟩ := by
  rw [flowValue]
  simp [run_nodeUnless present]

/-- An entry whose key is marked is read as a key and a value. -/
theorem run_flowEntries_near {first : Token} (begins : beginsContent first = true) (key : String) :
    (flowEntries handles (fuel + 4) true).run
        ⟨.key :: Flow.textToken key :: .value :: first :: rest, anchors⟩ =
      (do
        let value ← node handles (fuel + 1) .flow
        return (Flow.ofText key, value) :: (← flowEntries handles (fuel + 3) false)).run
          ⟨first :: rest, anchors⟩ := by
  have noEnd : (accept .flowMappingEnd).run
      ⟨.key :: Flow.textToken key :: .value :: first :: rest, anchors⟩ = _ :=
    run_accept_other (by simp)
  have notEmptyKey : Flow.textToken key ∉ [Token.value, .flowEntry, .flowMappingEnd] := by
    simp [Flow.textToken]
  have notEmpty : first ∉ [Token.flowEntry, .flowMappingEnd] := by
    cases first <;> simp_all [beginsContent]
  have runKey : (node handles (fuel + 2) .flow).run
      ⟨Flow.textToken key :: .value :: first :: rest, anchors⟩ =
        some (Flow.ofText key, ⟨.value :: first :: rest, anchors⟩) :=
    run_node_scalar .flow (Lexeme.folded key.toList) false
  rw [flowEntries]
  simp [noEnd, run_nodeUnless notEmptyKey, runKey, run_flowValue notEmpty]

/-- Behind a key that is not marked a value makes no tree. -/
theorem run_flowEntries_far (key : String) :
    (flowEntries handles (fuel + 4) true).run
        ⟨Flow.textToken key :: .value :: rest, anchors⟩ = none := by
  have noEnd : (accept .flowMappingEnd).run ⟨Flow.textToken key :: .value :: rest, anchors⟩ = _ :=
    run_accept_of_beginsContent rfl rfl
  have noKey : (accept .key).run ⟨Flow.textToken key :: .value :: rest, anchors⟩ = _ :=
    run_accept_of_beginsContent rfl rfl
  have noEndBehind : (accept .flowMappingEnd).run ⟨.value :: rest, anchors⟩ = _ :=
    run_accept_other (by simp)
  have noComma : (accept .flowEntry).run ⟨.value :: rest, anchors⟩ = _ :=
    run_accept_other (by simp)
  have runKey : (node handles (fuel + 3) .flow).run
      ⟨Flow.textToken key :: .value :: rest, anchors⟩ =
        some (Flow.ofText key, ⟨.value :: rest, anchors⟩) :=
    run_node_scalar .flow (Lexeme.folded key.toList) false
  rw [flowEntries, flowEntries]
  simp [noEnd, noKey, noEndBehind, noComma, runKey]

/-! ## Values, items and entries -/

open DeployTarget.Yaml.Flow

section

variable {more : List Token}

/-- An item and those behind it make up their nodes, if all of their keys are near. -/
theorem run_flowItems_cons {item : Json} {others : List Json}
    (run : (node handles fuel .flow).run
        ⟨tokens item ++ (remainingItems others ++ more), anchors⟩ =
      if item.everyText (fun _ => true) isNear then
        some (composed item, ⟨remainingItems others ++ more, anchors⟩)
      else none)
    (runRest : (flowItems handles fuel false).run ⟨remainingItems others ++ more, anchors⟩ =
      if Json.everyTextOfItems (fun _ => true) isNear others then
        some (composedItems others, ⟨more, anchors⟩)
      else none) :
    (flowItems handles (fuel + 1) true).run
        ⟨tokens item ++ (remainingItems others ++ more), anchors⟩ =
      if Json.everyTextOfItems (fun _ => true) isNear (item :: others) then
        some (composedItems (item :: others), ⟨more, anchors⟩)
      else none := by
  obtain ⟨first, behind, same, begins⟩ := Flow.exists_tokens_eq_cons item
  rw [same, List.cons_append] at run ⊢
  rw [run_flowItems_item begins, StateT.run_bind, run, Json.everyTextOfItems]
  cases item.everyText (fun _ => true) isNear with
  | false => rfl
  | true =>
      simp only [if_true, Option.bind_eq_bind, Option.bind_some, StateT.run_bind, runRest,
        Bool.true_and]
      split <;> rfl

theorem run_flowEntries_cons (key : String) {value : Json} {others : List (String × Json)}
    (run : (node handles (fuel + 1) .flow).run
        ⟨tokens value ++ (remainingEntries others ++ more), anchors⟩ =
      if value.everyText (fun _ => true) isNear then
        some (composed value, ⟨remainingEntries others ++ more, anchors⟩)
      else none)
    (runRest : (flowEntries handles (fuel + 3) false).run
        ⟨remainingEntries others ++ more, anchors⟩ =
      if Json.everyTextOfEntries (fun _ => true) isNear others then
        some (composedEntries others, ⟨more, anchors⟩)
      else none) :
    (flowEntries handles (fuel + 4) true).run
        ⟨keyMark key ++ textToken key :: .value ::
          (tokens value ++ (remainingEntries others ++ more)), anchors⟩ =
      if Json.everyTextOfEntries (fun _ => true) isNear ((key, value) :: others) then
        some (composedEntries ((key, value) :: others), ⟨more, anchors⟩)
      else none := by
  obtain ⟨first, behind, same, begins⟩ := Flow.exists_tokens_eq_cons value
  rw [same, List.cons_append] at run ⊢
  rw [Json.everyTextOfEntries, keyMark]
  cases isNear key with
  | false => exact run_flowEntries_far key
  | true =>
      simp only [if_true, List.cons_append, List.nil_append, Bool.true_and]
      rw [run_flowEntries_near begins, StateT.run_bind, run]
      cases value.everyText (fun _ => true) isNear with
      | false => rfl
      | true =>
          simp only [if_true, Option.bind_eq_bind, Option.bind_some, StateT.run_bind, runRest,
            Bool.true_and]
          split <;> rfl

end

-- Fuel goes down at every call, and four for each token are enough.
mutual

/-- The tokens of plain data make up its node, if all of its keys are near. -/
theorem run_node_flow (bound : Nat) (place : Place) (more : List Token) (fuel : Nat) :
    (value : Json) → value.fits bound = true → 4 * (tokens value).length ≤ fuel →
      (node handles fuel place).run ⟨tokens value ++ more, anchors⟩ =
        if value.everyText (fun _ => true) isNear then some (composed value, ⟨more, anchors⟩)
        else none
  | .null, _, enough | .bool true, _, enough | .bool false, _, enough | .string _, _, enough => by
      obtain ⟨fuel, rfl⟩ := Nat.exists_eq_add_of_le' enough
      exact run_node_scalar place _ _
  | .number _, fits, _ => by cases bound <;> cases fits
  | .array [], _, enough | .object [], _, enough => by
      obtain ⟨fuel, rfl⟩ := Nat.exists_eq_add_of_le' enough
      rfl
  | .array (item :: rest), fits, enough => by
      cases bound with
      | zero => cases fits
      | succ bound =>
          obtain ⟨fitsItem, fitsRest⟩ := Bool.and_eq_true_iff.mp fits
          simp only [tokens, List.length_cons, List.length_append] at enough
          obtain ⟨fuel, rfl⟩ : ∃ less, fuel = less + 1 + 2 := ⟨fuel - 3, by omega⟩
          have run := run_flowItems_cons
            (run_node_flow bound .flow (remainingItems rest ++ more) fuel item fitsItem (by omega))
            (run_flowItems_remaining bound more fuel rest fitsRest (by omega))
          rw [tokens, List.cons_append, List.append_assoc, run_node_list, StateT.run_map, run]
          change _ = if Json.everyTextOfItems (fun _ => true) isNear (item :: rest) then _ else _
          split <;> rfl
  | .object ((key, value) :: rest), fits, enough => by
      cases bound with
      | zero => cases fits
      | succ bound =>
          obtain ⟨fitsValue, fitsRest⟩ := Bool.and_eq_true_iff.mp fits
          simp only [tokens, List.length_cons, List.length_append] at enough
          obtain ⟨fuel, rfl⟩ : ∃ less, fuel = less + 4 + 2 := ⟨fuel - 6, by omega⟩
          have run := run_flowEntries_cons key
            (run_node_flow bound .flow (remainingEntries rest ++ more) (fuel + 1) value fitsValue
              (by omega))
            (run_flowEntries_remaining bound more (fuel + 3) rest fitsRest (by omega))
          have shape : tokens (.object ((key, value) :: rest)) ++ more =
              .flowMappingStart :: (keyMark key ++ textToken key :: .value ::
                (tokens value ++ (remainingEntries rest ++ more))) := by
            simp [tokens]
          rw [shape, run_node_object, StateT.run_map, run]
          change _ =
            if Json.everyTextOfEntries (fun _ => true) isNear ((key, value) :: rest) then _ else _
          split <;> rfl

theorem run_flowItems_remaining (bound : Nat) (more : List Token) (fuel : Nat) :
    (items : List Json) → Json.allFit bound items = true →
      4 * (remainingItems items).length ≤ fuel →
      (flowItems handles fuel false).run ⟨remainingItems items ++ more, anchors⟩ =
        if Json.everyTextOfItems (fun _ => true) isNear items then
          some (composedItems items, ⟨more, anchors⟩)
        else none
  | [], _, enough => by
      obtain ⟨fuel, rfl⟩ := Nat.exists_eq_add_of_le' enough
      rfl
  | item :: rest, fits, enough => by
      obtain ⟨fitsItem, fitsRest⟩ := Bool.and_eq_true_iff.mp fits
      simp only [remainingItems, List.length_cons, List.length_append] at enough
      obtain ⟨fuel, rfl⟩ : ∃ less, fuel = less + 1 := ⟨fuel - 1, by omega⟩
      have run := run_flowItems_cons
        (run_node_flow bound .flow (remainingItems rest ++ more) fuel item fitsItem (by omega))
        (run_flowItems_remaining bound more fuel rest fitsRest (by omega))
      have notEnd : (tokens item ++ (remainingItems rest ++ more)).head? ≠
          some .flowSequenceEnd := by
        obtain ⟨first, behind, same, begins⟩ := Flow.exists_tokens_eq_cons item
        rw [same]
        rintro ⟨⟩
        cases begins
      rw [remainingItems, List.cons_append, List.append_assoc, run_flowItems_comma notEnd]
      exact run

theorem run_flowEntries_remaining (bound : Nat) (more : List Token) (fuel : Nat) :
    (entries : List (String × Json)) → Json.entriesFit bound entries = true →
      4 * (remainingEntries entries).length ≤ fuel →
      (flowEntries handles fuel false).run ⟨remainingEntries entries ++ more, anchors⟩ =
        if Json.everyTextOfEntries (fun _ => true) isNear entries then
          some (composedEntries entries, ⟨more, anchors⟩)
        else none
  | [], _, enough => by
      obtain ⟨fuel, rfl⟩ := Nat.exists_eq_add_of_le' enough
      rfl
  | (key, value) :: rest, fits, enough => by
      obtain ⟨fitsValue, fitsRest⟩ := Bool.and_eq_true_iff.mp fits
      simp only [remainingEntries, List.length_cons, List.length_append] at enough
      obtain ⟨fuel, rfl⟩ : ∃ less, fuel = less + 4 := ⟨fuel - 4, by omega⟩
      have run := run_flowEntries_cons key
        (run_node_flow bound .flow (remainingEntries rest ++ more) (fuel + 1) value fitsValue
          (by omega))
        (run_flowEntries_remaining bound more (fuel + 3) rest fitsRest (by omega))
      have shape : remainingEntries ((key, value) :: rest) ++ more =
          .flowEntry :: (keyMark key ++ textToken key :: .value ::
            (tokens value ++ (remainingEntries rest ++ more))) := by
        simp [remainingEntries]
      have notEnd : (keyMark key ++ textToken key :: .value ::
          (tokens value ++ (remainingEntries rest ++ more))).head? ≠ some .flowMappingEnd := by
        unfold keyMark
        split <;> simp [textToken]
      rw [shape, run_flowEntries_comma notEnd]
      exact run

end

end Composer

/-- The tokens of compact text make up the tree of its data with all texts folded, if all of its
keys are near, and no tree at all otherwise. -/
theorem Node.ofTokens?_flow (value : Json) (fits : value.fits deepest = true) :
    ofTokens? (Flow.tokens value ++ [.streamEnd]) =
      if value.everyText (fun _ => true) Flow.isNear then
        some (ofJson Flow.noPlain (value.mapTexts refold))
      else none := by
  obtain ⟨fuel, length⟩ : ∃ fuel, 4 * (Flow.tokens value ++ [Token.streamEnd]).length + 4 =
      fuel + 1 := ⟨_, rfl⟩
  have enough : 4 * (Flow.tokens value).length ≤ fuel + 1 := by
    rw [← length, List.length_append]
    omega
  have run : (Composer.stream (fuel + 1)).run ⟨Flow.tokens value ++ [.streamEnd], []⟩ =
      if value.everyText (fun _ => true) Flow.isNear then
        some (Flow.composed value, ⟨[.streamEnd], []⟩)
      else none := by
    have run : (Composer.node Composer.standardHandles (fuel + 1) .block).run
        ⟨Flow.tokens value ++ [.streamEnd], []⟩ = _ :=
      Composer.run_node_flow deepest .block [.streamEnd] (fuel + 1) value fits enough
    obtain ⟨first, rest, tokens, begins⟩ := Flow.exists_tokens_eq_cons value
    rw [tokens, List.cons_append] at run ⊢
    exact Composer.run_stream begins run
  rw [ofTokens?, length, run]
  cases near : value.everyText (fun _ => true) Flow.isNear with
  | false => rfl
  | true =>
      have shows := Flow.shows_composed deepest value fits near
      simp [shows.jumps, shows.depth, shows.node]

end DeployTarget.Yaml
