import DeployTarget.Proofs.PlainNode
import DeployTarget.Yaml.Writer
import Mathlib.Tactic.Common

/-!
# The tree of a block document

The tokens of plain data in blocks: an entry is a key and a value, an item stands behind a
mark of its own, and collections lie between a start and an end, except that the items of a
list in an entry need none.  Such tokens make up the tree of the data.
-/

namespace DeployTarget.Yaml

/-- Whether a text is written plain. -/
def Writer.isPlain (text : String) : Bool :=
  Writer.styleOf text == .plain

namespace Block

def textToken (text : String) : Token :=
  .scalar text.toList (Writer.isPlain text)

mutual

/-- The tokens of plain data in blocks.  A loose list has neither start nor end. -/
def tokens (loose : Bool) : Json → List Token
  | .null => [.scalar ['n', 'u', 'l', 'l'] true]
  | .bool true => [.scalar ['t', 'r', 'u', 'e'] true]
  | .bool false => [.scalar ['f', 'a', 'l', 's', 'e'] true]
  | .number value => [.scalar value.characters true]
  | .string text => [textToken text]
  | .array [] => [.flowSequenceStart, .flowSequenceEnd]
  | .array items =>
      if loose then itemTokens items else .blockSequenceStart :: itemTokens items ++ [.blockEnd]
  | .object [] => [.flowMappingStart, .flowMappingEnd]
  | .object entries => .blockMappingStart :: entryTokens entries ++ [.blockEnd]

def itemTokens : List Json → List Token
  | [] => []
  | item :: rest => .blockEntry :: tokens false item ++ itemTokens rest

/-- The tokens of entries; a list is loose behind a key that has no mark. -/
def entryTokens : List (String × Json) → List Token
  | [] => []
  | (key, value) :: rest =>
      .key :: textToken key :: .value :: tokens (Writer.isSimpleKey key) value ++
        entryTokens rest

end

theorem tokens_array (item : Json) (rest : List Json) (more : List Token) :
    tokens false (.array (item :: rest)) ++ more =
      .blockSequenceStart :: (itemTokens (item :: rest) ++ .blockEnd :: more) := by
  simp [tokens]

theorem tokens_object (loose : Bool) (entry : String × Json) (rest : List (String × Json))
    (more : List Token) :
    tokens loose (.object (entry :: rest)) ++ more =
      .blockMappingStart :: (entryTokens (entry :: rest) ++ .blockEnd :: more) := by
  simp [tokens]

theorem itemTokens_cons (item : Json) (rest : List Json) (more : List Token) :
    itemTokens (item :: rest) ++ more =
      .blockEntry :: (tokens false item ++ (itemTokens rest ++ more)) := by
  simp [itemTokens]

theorem entryTokens_cons (key : String) (value : Json) (rest : List (String × Json))
    (more : List Token) :
    entryTokens ((key, value) :: rest) ++ more =
      .key :: textToken key :: .value ::
        (tokens (Writer.isSimpleKey key) value ++ (entryTokens rest ++ more)) := by
  simp [entryTokens]

end Block

namespace Composer

variable {handles : List (List Char × List Char)}
  {anchors : List (List Char × Option Composed)} {fuel : Nat}

/-! ## Single steps -/

@[simp]
theorem run_peek (state : State) : peek.run state = some (state.tokens.head?, state) :=
  rfl

@[simp]
theorem run_advance (token : Token) (rest : List Token) :
    advance.run ⟨token :: rest, anchors⟩ = some ((), ⟨rest, anchors⟩) :=
  rfl

@[simp]
theorem run_accept_same (token : Token) (rest : List Token) :
    (accept token).run ⟨token :: rest, anchors⟩ = some (true, ⟨rest, anchors⟩) := by
  simp [accept]

theorem run_accept_other {token : Token} {rest : List Token} (different : rest.head? ≠ some token) :
    (accept token).run ⟨rest, anchors⟩ = some (false, ⟨rest, anchors⟩) := by
  simp [accept, different]

@[simp]
theorem run_isNext (stops : List Token) (first : Token) (rest : List Token) :
    (isNext stops).run ⟨first :: rest, anchors⟩ =
      some (decide (first ∈ stops), ⟨first :: rest, anchors⟩) :=
  rfl

/-- Whether a token begins the content of a node. -/
def beginsContent : Token → Bool
  | .scalar _ _ | .flowSequenceStart | .flowMappingStart | .blockSequenceStart
  | .blockMappingStart | .blockEntry => true
  | _ => false

/-- A node without anchor and tag is its content. -/
theorem run_node {first : Token} (begins : beginsContent first = true) (place : Place)
    (rest : List Token) :
    (node handles (fuel + 1) place).run ⟨first :: rest, anchors⟩ =
      (content handles fuel place false none).run ⟨first :: rest, anchors⟩ := by
  cases first <;> first | rfl | cases begins

theorem run_nodeUnless {first : Token} {stops : List Token} (present : first ∉ stops)
    (place : Place) (rest : List Token) :
    (nodeUnless handles (fuel + 1) place stops).run ⟨first :: rest, anchors⟩ =
      (node handles fuel place).run ⟨first :: rest, anchors⟩ := by
  rw [nodeUnless]
  simp [present]

theorem run_content_sequence {place : Place} (block : place ≠ .flow) (rest : List Token) :
    (content handles (fuel + 1) place false none).run ⟨.blockSequenceStart :: rest, anchors⟩ =
      (sequence none <$> blockItems handles fuel).run ⟨rest, anchors⟩ := by
  cases place <;> first | exact absurd rfl block | rfl

theorem run_content_loose (rest : List Token) :
    (content handles (fuel + 1) .blockValue false none).run ⟨.blockEntry :: rest, anchors⟩ =
      (sequence none <$> looseItems handles fuel).run ⟨.blockEntry :: rest, anchors⟩ :=
  rfl

theorem run_content_mapping {place : Place} (block : place ≠ .flow) (rest : List Token) :
    (content handles (fuel + 1) place false none).run ⟨.blockMappingStart :: rest, anchors⟩ =
      (mapping none <$> blockEntries handles fuel).run ⟨rest, anchors⟩ := by
  cases place <;> first | exact absurd rfl block | rfl

end Composer

/-! ## What is composed -/

/-- A node that shows plain data with the given texts written plain, follows no names and is
nested no deeper than a bound. -/
structure Composed.Shows (isPlain : String → Bool) (composed : Composed) (value : Json)
    (bound : Nat) : Prop where
  node : composed.node = Node.ofJson isPlain value
  jumps : composed.jumps = 0
  depth : composed.depth ≤ bound

/-- Nodes that show the items of a list, one by one. -/
structure Composed.ShowItems (isPlain : String → Bool) (items : List Composed) (values : List Json)
    (bound : Nat) : Prop where
  nodes : items.map Composed.node = Node.itemsOfJson isPlain values
  each : ∀ item ∈ items, item.jumps = 0 ∧ item.depth ≤ bound

/-- Nodes that show the keys and the values of entries, one by one. -/
structure Composed.ShowEntries (isPlain : String → Bool) (entries : List (Composed × Composed))
    (values : List (String × Json)) (bound : Nat) : Prop where
  nodes : entries.map (fun entry => (entry.1.node, entry.2.node)) =
    Node.entriesOfJson isPlain values
  each : ∀ entry ∈ entries, entry.1.jumps = 0 ∧ entry.2.jumps = 0 ∧
    entry.1.depth ≤ bound ∧ entry.2.depth ≤ bound

namespace Composed

variable {isPlain : String → Bool}

theorem showItems_cons {item : Composed} {items : List Composed} {value : Json}
    {values : List Json} {bound : Nat} (shows : item.Shows isPlain value bound)
    (others : ShowItems isPlain items values bound) :
    ShowItems isPlain (item :: items) (value :: values) bound where
  nodes := by rw [List.map_cons, shows.node, others.nodes, Node.itemsOfJson]
  each := by
    intro other member
    rcases List.mem_cons.mp member with rfl | later
    · exact ⟨shows.jumps, shows.depth⟩
    · exact others.each other later

theorem showEntries_cons {key item : Composed} {entries : List (Composed × Composed)}
    {name : String} {value : Json} {values : List (String × Json)} {bound : Nat}
    (showsKey : key.Shows isPlain (.string name) 0) (shows : item.Shows isPlain value bound)
    (others : ShowEntries isPlain entries values bound) :
    ShowEntries isPlain ((key, item) :: entries) ((name, value) :: values) bound where
  nodes := by
    rw [List.map_cons, showsKey.node, shows.node, others.nodes, Node.entriesOfJson, Node.ofJson]
  each := by
    intro other member
    rcases List.mem_cons.mp member with rfl | later
    · exact ⟨showsKey.jumps, shows.jumps, showsKey.depth.trans (Nat.zero_le bound), shows.depth⟩
    · exact others.each other later

private theorem foldl_add_eq {α : Type} (measure : α → Nat) {items : List α} (start : Nat)
    (zero : ∀ item ∈ items, measure item = 0) :
    items.foldl (fun total item => total + measure item) start = start := by
  induction items with
  | nil => rfl
  | cons item rest ih =>
      rw [List.foldl_cons, zero item List.mem_cons_self, Nat.add_zero]
      exact ih fun other member => zero other (List.mem_cons_of_mem _ member)

private theorem foldl_max_le {depths : List Nat} {start bound : Nat} (first : start ≤ bound)
    (below : ∀ depth ∈ depths, depth ≤ bound) : depths.foldl max start ≤ bound := by
  induction depths generalizing start with
  | nil => exact first
  | cons depth rest ih =>
      exact ih (max_le first (below depth List.mem_cons_self))
        fun other member => below other (List.mem_cons_of_mem _ member)

theorem shows_sequence {items : List Composed} {values : List Json} {bound : Nat}
    (shows : ShowItems isPlain items values bound) :
    (Composer.sequence none items).Shows isPlain (.array values) (bound + 1) where
  node := by rw [Composer.sequence, shows.nodes, Node.ofJson]
  jumps := foldl_add_eq Composed.jumps 0 fun item member => (shows.each item member).1
  depth := by
    refine Nat.succ_le_succ (foldl_max_le (Nat.zero_le bound) fun depth member => ?_)
    obtain ⟨item, listed, rfl⟩ := List.mem_map.mp member
    exact (shows.each item listed).2

theorem shows_mapping {entries : List (Composed × Composed)} {values : List (String × Json)}
    {bound : Nat} (shows : ShowEntries isPlain entries values bound) :
    (Composer.mapping none entries).Shows isPlain (.object values) (bound + 1) where
  node := by rw [Composer.mapping, shows.nodes, Node.ofJson]
  jumps := by
    have none (entry : Composed × Composed) (member : entry ∈ entries) :
        entry.1.jumps + entry.2.jumps = 0 := by
      obtain ⟨key, value, -⟩ := shows.each entry member
      rw [key, value]
    have sum := foldl_add_eq (fun entry : Composed × Composed => entry.1.jumps + entry.2.jumps) 0
      none
    simpa only [Composer.mapping, Nat.add_assoc] using sum
  depth := by
    refine Nat.succ_le_succ (foldl_max_le (Nat.zero_le bound) fun depth member => ?_)
    obtain ⟨entry, listed, rfl⟩ := List.mem_map.mp member
    obtain ⟨-, -, key, value⟩ := shows.each entry listed
    exact max_le key value

end Composed

namespace Composer

variable {handles : List (List Char × List Char)}
  {anchors : List (List Char × Option Composed)}

/-! ## Values, items and entries -/

/-- The tokens of plain data begin with one that begins the content of a node. -/
theorem exists_tokens_eq_cons (loose : Bool) (value : Json) :
    ∃ first rest, Block.tokens loose value = first :: rest ∧ beginsContent first = true ∧
      (loose = false → first ≠ .blockEntry) := by
  cases value with
  | bool flag => cases flag <;> exact ⟨_, _, rfl, rfl, fun _ => Token.noConfusion⟩
  | array items =>
      cases items with
      | nil => exact ⟨_, _, rfl, rfl, fun _ => Token.noConfusion⟩
      | cons item rest =>
          cases loose with
          | false => exact ⟨_, _, rfl, rfl, fun _ => Token.noConfusion⟩
          | true => exact ⟨_, _, rfl, rfl, Bool.noConfusion⟩
  | object entries => cases entries <;> exact ⟨_, _, rfl, rfl, fun _ => Token.noConfusion⟩
  | null | number | string => exact ⟨_, _, rfl, rfl, fun _ => Token.noConfusion⟩

/-- A token that begins the content of a node is none that ends an entry. -/
theorem not_mem_of_beginsContent {first : Token} (begins : beginsContent first = true) :
    first ∉ [Token.key, .value, .blockEnd] := by
  cases first <;> simp_all [beginsContent]

theorem run_textToken (handles : List (List Char × List Char))
    (anchors : List (List Char × Option Composed)) (place : Place) (text : String) (bound : Nat)
    (more : List Token) (fuel : Nat) (enough : 2 ≤ fuel) :
    ∃ composed : Composed, composed.Shows Writer.isPlain (.string text) bound ∧
      (node handles fuel place).run ⟨Block.textToken text :: more, anchors⟩ =
        some (composed, ⟨more, anchors⟩) := by
  obtain ⟨fuel, rfl⟩ := Nat.exists_eq_add_of_le' enough
  refine ⟨⟨.scalar (String.ofList text.toList) (Writer.isPlain text) none, 1, 0, 0⟩,
    ⟨?_, rfl, Nat.zero_le _⟩, rfl⟩
  rw [String.ofList_toList, Node.ofJson, Node.ofText]

section

variable {place : Place} {more : List Token} {fuel bound : Nat}

/-- Items that are indented further make up a list. -/
theorem run_node_blockItems (block : place ≠ .flow) {item : Json} {rest : List Json}
    {items : List Composed} (shows : Composed.ShowItems Writer.isPlain items (item :: rest) bound)
    (run : (blockItems handles fuel).run
        ⟨Block.itemTokens (item :: rest) ++ .blockEnd :: more, anchors⟩ =
      some (items, ⟨more, anchors⟩)) :
    ∃ composed : Composed, composed.Shows Writer.isPlain (.array (item :: rest)) (bound + 1) ∧
      (node handles (fuel + 2) place).run
          ⟨Block.tokens false (.array (item :: rest)) ++ more, anchors⟩ =
        some (composed, ⟨more, anchors⟩) := by
  refine ⟨sequence none items, Composed.shows_sequence shows, ?_⟩
  rw [Block.tokens_array, run_node rfl, run_content_sequence block, StateT.run_map, run]
  rfl

/-- Items that are indented as far as the key of an entry make up the list of the entry. -/
theorem run_node_looseItems {item : Json} {rest : List Json} {items : List Composed}
    (shows : Composed.ShowItems Writer.isPlain items (item :: rest) bound)
    (run : (looseItems handles fuel).run ⟨Block.itemTokens (item :: rest) ++ more, anchors⟩ =
      some (items, ⟨more, anchors⟩)) :
    ∃ composed : Composed, composed.Shows Writer.isPlain (.array (item :: rest)) (bound + 1) ∧
      (node handles (fuel + 2) .blockValue).run
          ⟨Block.tokens true (.array (item :: rest)) ++ more, anchors⟩ =
        some (composed, ⟨more, anchors⟩) := by
  refine ⟨sequence none items, Composed.shows_sequence shows, ?_⟩
  change (node handles (fuel + 2) .blockValue).run
    ⟨Block.itemTokens (item :: rest) ++ more, anchors⟩ = _
  rw [Block.itemTokens_cons] at run ⊢
  rw [run_node rfl, run_content_loose, StateT.run_map, run]
  rfl

theorem run_node_blockEntries (block : place ≠ .flow) (loose : Bool) {entry : String × Json}
    {rest : List (String × Json)} {entries : List (Composed × Composed)}
    (shows : Composed.ShowEntries Writer.isPlain entries (entry :: rest) bound)
    (run : (blockEntries handles fuel).run
        ⟨Block.entryTokens (entry :: rest) ++ .blockEnd :: more, anchors⟩ =
      some (entries, ⟨more, anchors⟩)) :
    ∃ composed : Composed, composed.Shows Writer.isPlain (.object (entry :: rest)) (bound + 1) ∧
      (node handles (fuel + 2) place).run
          ⟨Block.tokens loose (.object (entry :: rest)) ++ more, anchors⟩ =
        some (composed, ⟨more, anchors⟩) := by
  refine ⟨mapping none entries, Composed.shows_mapping shows, ?_⟩
  rw [Block.tokens_object, run_node rfl, run_content_mapping block, StateT.run_map, run]
  rfl

end

-- Fuel goes down at every call.  Four for each token are enough: a node takes two until its
-- items or entries are read, and each of these takes two more until its own nodes are.
mutual

theorem run_node_tokens (loose : Bool) (bound : Nat) (place : Place) (block : place ≠ .flow)
    (more : List Token) (fuel : Nat) : (value : Json) → value.fits bound = true →
    4 * (Block.tokens loose value).length ≤ fuel →
    (loose = true → place = .blockValue ∧ more.head? ≠ some .blockEntry) →
    ∃ composed : Composed, composed.Shows Writer.isPlain value bound ∧
      (node handles fuel place).run ⟨Block.tokens loose value ++ more, anchors⟩ =
        some (composed, ⟨more, anchors⟩)
  | .null, _, enough, _ => by
      obtain ⟨fuel, rfl⟩ := Nat.exists_eq_add_of_le' enough
      exact ⟨⟨.scalar "null" true none, 1, 0, 0⟩, ⟨rfl, rfl, Nat.zero_le _⟩, rfl⟩
  | .bool true, _, enough, _ => by
      obtain ⟨fuel, rfl⟩ := Nat.exists_eq_add_of_le' enough
      exact ⟨⟨.scalar "true" true none, 1, 0, 0⟩, ⟨rfl, rfl, Nat.zero_le _⟩, rfl⟩
  | .bool false, _, enough, _ => by
      obtain ⟨fuel, rfl⟩ := Nat.exists_eq_add_of_le' enough
      exact ⟨⟨.scalar "false" true none, 1, 0, 0⟩, ⟨rfl, rfl, Nat.zero_le _⟩, rfl⟩
  | .number _, fits, _, _ => by cases bound <;> cases fits
  | .string text, _, enough, _ => run_textToken handles anchors place text bound more fuel (by
      simp only [Block.tokens, List.length_singleton] at enough
      omega)
  | .array [], fits, enough, _ => by
      obtain ⟨fuel, rfl⟩ := Nat.exists_eq_add_of_le' enough
      cases bound with
      | zero => cases fits
      | succ bound =>
          exact ⟨sequence none [], Composed.shows_sequence ⟨rfl, by simp⟩, rfl⟩
  | .array (item :: rest), fits, enough, listed => by
      cases bound with
      | zero => cases fits
      | succ bound =>
          have present : 1 ≤ (Block.itemTokens (item :: rest)).length := Nat.succ_pos _
          cases loose with
          | true =>
              obtain ⟨rfl, noMore⟩ := listed rfl
              have length : (Block.tokens true (.array (item :: rest))).length =
                  (Block.itemTokens (item :: rest)).length := rfl
              obtain ⟨fuel, rfl⟩ : ∃ less, fuel = less + 2 := ⟨fuel - 2, by omega⟩
              obtain ⟨items, shows, run⟩ := run_looseItems bound more noMore fuel (item :: rest)
                fits (by omega) (by omega)
              exact run_node_looseItems shows run
          | false =>
              have length : (Block.tokens false (.array (item :: rest))).length =
                  (Block.itemTokens (item :: rest)).length + 2 := by
                simp [Block.tokens]
              obtain ⟨fuel, rfl⟩ : ∃ less, fuel = less + 2 := ⟨fuel - 2, by omega⟩
              obtain ⟨items, shows, run⟩ := run_blockItems bound more fuel (item :: rest) fits
                (by omega) (by omega)
              exact run_node_blockItems block shows run
  | .object [], fits, enough, _ => by
      obtain ⟨fuel, rfl⟩ := Nat.exists_eq_add_of_le' enough
      cases bound with
      | zero => cases fits
      | succ bound =>
          exact ⟨mapping none [], Composed.shows_mapping ⟨rfl, by simp⟩, rfl⟩
  | .object (entry :: rest), fits, enough, _ => by
      cases bound with
      | zero => cases fits
      | succ bound =>
          have length : (Block.tokens loose (.object (entry :: rest))).length =
              (Block.entryTokens (entry :: rest)).length + 2 := by
            simp [Block.tokens]
          obtain ⟨fuel, rfl⟩ : ∃ less, fuel = less + 2 := ⟨fuel - 2, by omega⟩
          obtain ⟨entries, shows, run⟩ := run_blockEntries bound more fuel (entry :: rest)
            fits (by omega) (by omega)
          exact run_node_blockEntries block loose shows run

theorem run_blockItems (bound : Nat) (more : List Token) (fuel : Nat) : (items : List Json) →
    Json.allFit bound items = true → 4 * (Block.itemTokens items).length ≤ fuel + 2 → 1 ≤ fuel →
    ∃ composed : List Composed, Composed.ShowItems Writer.isPlain composed items bound ∧
      (blockItems handles fuel).run ⟨Block.itemTokens items ++ .blockEnd :: more, anchors⟩ =
        some (composed, ⟨more, anchors⟩)
  | [], _, _, positive => by
      obtain ⟨fuel, rfl⟩ := Nat.exists_eq_add_of_le' positive
      exact ⟨[], ⟨rfl, by simp⟩, rfl⟩
  | item :: rest, fits, enough, _ => by
      obtain ⟨fitsItem, fitsRest⟩ := Bool.and_eq_true_iff.mp fits
      have length : (Block.itemTokens (item :: rest)).length =
          (Block.tokens false item).length + (Block.itemTokens rest).length + 1 := by
        simp [Block.itemTokens]
      obtain ⟨fuel, rfl⟩ : ∃ less, fuel = less + 2 := ⟨fuel - 2, by omega⟩
      obtain ⟨node, shows, run⟩ := run_node_tokens false bound .block Place.noConfusion
        (Block.itemTokens rest ++ .blockEnd :: more) fuel item fitsItem (by omega) (by simp)
      obtain ⟨nodes, others, runRest⟩ := run_blockItems bound more (fuel + 1) rest fitsRest
        (by omega) (by omega)
      refine ⟨node :: nodes, Composed.showItems_cons shows others, ?_⟩
      obtain ⟨first, behind, tokens, begins, notEntry⟩ := exists_tokens_eq_cons false item
      rw [tokens, List.cons_append] at run
      have present : first ∉ [Token.blockEntry, .blockEnd] := fun member =>
        (List.mem_cons.mp member).elim (notEntry rfl) fun isEnd =>
          not_mem_of_beginsContent begins (List.mem_cons_of_mem _ (List.mem_cons_of_mem _ isEnd))
      rw [Block.itemTokens_cons, tokens, List.cons_append, blockItems]
      simp [run_nodeUnless present, run, runRest]

theorem run_looseItems (bound : Nat) (more : List Token) (noMore : more.head? ≠ some .blockEntry)
    (fuel : Nat) : (items : List Json) →
    Json.allFit bound items = true → 4 * (Block.itemTokens items).length ≤ fuel + 2 → 1 ≤ fuel →
    ∃ composed : List Composed, Composed.ShowItems Writer.isPlain composed items bound ∧
      (looseItems handles fuel).run ⟨Block.itemTokens items ++ more, anchors⟩ =
        some (composed, ⟨more, anchors⟩)
  | [], _, _, positive => by
      obtain ⟨fuel, rfl⟩ := Nat.exists_eq_add_of_le' positive
      refine ⟨[], ⟨rfl, by simp⟩, ?_⟩
      rw [Block.itemTokens, List.nil_append, looseItems]
      simp [run_accept_other noMore]
  | item :: rest, fits, enough, _ => by
      obtain ⟨fitsItem, fitsRest⟩ := Bool.and_eq_true_iff.mp fits
      have length : (Block.itemTokens (item :: rest)).length =
          (Block.tokens false item).length + (Block.itemTokens rest).length + 1 := by
        simp [Block.itemTokens]
      obtain ⟨fuel, rfl⟩ : ∃ less, fuel = less + 2 := ⟨fuel - 2, by omega⟩
      obtain ⟨node, shows, run⟩ := run_node_tokens false bound .block Place.noConfusion
        (Block.itemTokens rest ++ more) fuel item fitsItem (by omega) (by simp)
      obtain ⟨nodes, others, runRest⟩ := run_looseItems bound more noMore (fuel + 1) rest fitsRest
        (by omega) (by omega)
      refine ⟨node :: nodes, Composed.showItems_cons shows others, ?_⟩
      obtain ⟨first, behind, tokens, begins, notEntry⟩ := exists_tokens_eq_cons false item
      rw [tokens, List.cons_append] at run
      have present : first ∉ [Token.blockEntry, .key, .value, .blockEnd] := fun member =>
        (List.mem_cons.mp member).elim (notEntry rfl) (not_mem_of_beginsContent begins)
      rw [Block.itemTokens_cons, tokens, List.cons_append, looseItems]
      simp [run_nodeUnless present, run, runRest]

theorem run_blockEntries (bound : Nat) (more : List Token) (fuel : Nat) :
    (entries : List (String × Json)) → Json.entriesFit bound entries = true →
    4 * (Block.entryTokens entries).length ≤ fuel + 2 → 1 ≤ fuel →
    ∃ composed : List (Composed × Composed),
      Composed.ShowEntries Writer.isPlain composed entries bound ∧
      (blockEntries handles fuel).run ⟨Block.entryTokens entries ++ .blockEnd :: more, anchors⟩ =
        some (composed, ⟨more, anchors⟩)
  | [], _, _, positive => by
      obtain ⟨fuel, rfl⟩ := Nat.exists_eq_add_of_le' positive
      exact ⟨[], ⟨rfl, by simp⟩, rfl⟩
  | (key, value) :: rest, fits, enough, _ => by
      obtain ⟨fitsValue, fitsRest⟩ := Bool.and_eq_true_iff.mp fits
      have length : (Block.entryTokens ((key, value) :: rest)).length =
          (Block.tokens (Writer.isSimpleKey key) value).length +
            (Block.entryTokens rest).length + 3 := by
        simp [Block.entryTokens]
      have noMore : (Block.entryTokens rest ++ .blockEnd :: more).head? ≠ some .blockEntry := by
        cases rest <;> simp [Block.entryTokens]
      obtain ⟨fuel, rfl⟩ : ∃ less, fuel = less + 2 := ⟨fuel - 2, by omega⟩
      obtain ⟨keyNode, showsKey, runKey⟩ := run_textToken handles anchors .blockValue key 0
        (.value :: (Block.tokens (Writer.isSimpleKey key) value ++
          (Block.entryTokens rest ++ .blockEnd :: more))) fuel (by omega)
      obtain ⟨node, shows, run⟩ := run_node_tokens (Writer.isSimpleKey key) bound .blockValue
        Place.noConfusion (Block.entryTokens rest ++ .blockEnd :: more) fuel value fitsValue
        (by omega) fun _ => ⟨rfl, noMore⟩
      obtain ⟨nodes, others, runRest⟩ := run_blockEntries bound more (fuel + 1) rest fitsRest
        (by omega) (by omega)
      refine ⟨(keyNode, node) :: nodes, Composed.showEntries_cons showsKey shows others, ?_⟩
      have keyPresent : Block.textToken key ∉ [Token.key, .value, .blockEnd] :=
        not_mem_of_beginsContent rfl
      obtain ⟨first, behind, tokens, begins, -⟩ :=
        exists_tokens_eq_cons (Writer.isSimpleKey key) value
      have present := not_mem_of_beginsContent begins
      rw [tokens, List.cons_append] at run runKey
      rw [Block.entryTokens_cons, tokens, List.cons_append, blockEntries]
      simp [run_nodeUnless keyPresent, run_nodeUnless present, runKey, run, runRest]

end

/-! ## Documents -/

theorem run_document {first : Token} (begins : beginsContent first = true) (rest : List Token) :
    (document (fuel + 1)).run ⟨first :: rest, anchors⟩ =
      (node standardHandles (fuel + 1) .block).run ⟨first :: rest, anchors⟩ := by
  cases first <;> first | rfl | cases begins

/-- A stream that holds one node is read as the node is. -/
theorem run_stream {first : Token} {rest : List Token} (begins : beginsContent first = true)
    {composes : Bool} {composed : Composed}
    (run : (node standardHandles (fuel + 1) .block).run ⟨first :: rest, []⟩ =
      if composes then some (composed, ⟨[.streamEnd], []⟩) else none) :
    (stream (fuel + 1)).run ⟨first :: rest, []⟩ =
      if composes then some (composed, ⟨[.streamEnd], []⟩) else none := by
  have notEnd : first ≠ .streamEnd := by
    rintro rfl
    cases begins
  have noMark : (accept .documentEnd).run ⟨[.streamEnd], []⟩ =
      some (false, ⟨[.streamEnd], []⟩) := rfl
  rw [stream]
  cases composes <;> simp [notEnd, run_document begins, run, skipEnds, noMark]

theorem run_stream_tokens (bound : Nat) (fuel : Nat) (value : Json)
    (fits : value.fits bound = true)
    (enough : 4 * (Block.tokens false value).length ≤ fuel + 1) :
    ∃ composed : Composed, composed.Shows Writer.isPlain value bound ∧
      (stream (fuel + 1)).run ⟨Block.tokens false value ++ [.streamEnd], []⟩ =
        some (composed, ⟨[.streamEnd], []⟩) := by
  obtain ⟨composed, shows, run⟩ : ∃ composed : Composed, composed.Shows Writer.isPlain value bound ∧
      (node standardHandles (fuel + 1) .block).run
        ⟨Block.tokens false value ++ [.streamEnd], []⟩ = some (composed, ⟨[.streamEnd], []⟩) :=
    run_node_tokens false bound .block Place.noConfusion [.streamEnd] (fuel + 1) value fits enough
      (by simp)
  obtain ⟨first, rest, tokens, begins, -⟩ := exists_tokens_eq_cons false value
  refine ⟨composed, shows, ?_⟩
  rw [tokens, List.cons_append] at run ⊢
  exact run_stream begins (run.trans (if_pos rfl).symm)

end Composer

/-- The tokens of plain data make up its tree. -/
theorem Node.ofTokens?_tokens (value : Json) (fits : value.fits deepest = true) :
    ofTokens? (Block.tokens false value ++ [.streamEnd]) =
      some (ofJson Writer.isPlain value) := by
  obtain ⟨composed, shows, run⟩ := Composer.run_stream_tokens deepest
    (4 * (Block.tokens false value ++ [Token.streamEnd]).length + 3) value fits
    (by simp only [List.length_append, List.length_singleton]; omega)
  rw [ofTokens?, run]
  simp [shows.jumps, shows.depth, shows.node]

end DeployTarget.Yaml
