import DeployTarget.Proofs.BlockLexer
import DeployTarget.Proofs.FlowTree
import DeployTarget.Proofs.Reads
import Mathlib.Tactic.FinCases

/-!
# The lexer on compact text

What the lexer does between two tokens of flow collections.  Each rule leads from a spot to a
spot, or nowhere.  No possible key is required there, so that all of them may be forgotten, and
only the one in front of a colon counts.
-/

namespace DeployTarget.Yaml

/-! ## Words without quotes -/

namespace Lexeme

/-- The letters of the words that stand without quotes. -/
def letters : List Char :=
  ['a', 'e', 'f', 'l', 'n', 'r', 's', 't', 'u']

theorem of_mem_letters : ∀ c ∈ letters,
    (isWhite c = false ∧ isBreak c = false) ∧ isFlowIndicator c = false ∧
      Lexer.State.isIndicator c = false ∧ c ≠ '.' := by
  intro c letter
  fin_cases letter <;> decide

variable {rest text : List Char} {fuel index line column : Nat} {c : Char}

theorem plainTail?_letter (letter : c ∈ letters) (fuel : Nat) (text : List Char)
    (gap : Option Gap) (rest : List Char) (index line column : Nat) :
    plainTail? true 0 (fuel + 1) text gap ⟨c :: rest, index, line, column⟩ =
      plainTail? true 0 fuel (c :: (gap.getD .none).folded.reverse ++ text) none
        ⟨rest, index + 1, line, column + 1⟩ := by
  obtain ⟨word, notFlow, notIndicator, notDot⟩ := of_mem_letters c letter
  have notMark : c ≠ '-' ∧ c ≠ ':' ∧ c ≠ '#' := by
    refine ⟨?_, ?_, ?_⟩ <;> rintro rfl <;> cases notIndicator
  have notStray : isStrayColon true (c :: rest) = false := by
    unfold isStrayColon
    split
    next same => exact absurd (List.cons.inj same).1 notMark.2.1
    next => rfl
  have inside : endsPlain true (c :: rest) = false := by
    simp [endsPlain, notMark, notFlow]
  refine plainTail?_word word notStray inside fun _ => ⟨notMark.2.2, ?_⟩
  simp [Cursor.atDocumentMark, notMark, notDot]

/-- Letters are read up to the end of their item. -/
theorem plainTail?_letters (ends : isFlowIndicator c = true) {word : List Char}
    (letters : word ⊆ Lexeme.letters) (text : List Char)
    (index line column : Nat) (enough : word.length < fuel) :
    plainTail? true 0 fuel text none ⟨word ++ c :: rest, index, line, column⟩ =
      some ⟨text.reverse ++ word,
        ⟨c :: rest, index + word.length, line, column + word.length⟩, false⟩ := by
  induction word generalizing fuel text index column with
  | nil =>
      obtain ⟨fuel, rfl⟩ := Nat.exists_eq_add_of_le' (Nat.one_le_of_lt enough)
      simp only [isFlowIndicator, Bool.or_eq_true, beq_iff_eq, or_assoc] at ends
      rcases ends with rfl | rfl | rfl | rfl | rfl <;>
        simp [plainTail?, isWhite, isBreak, isStrayColon, endsPlain, isFlowIndicator, Gap.none]
  | cons letter word ih =>
      obtain ⟨first, others⟩ := List.cons_subset.mp letters
      rw [List.length_cons] at enough
      obtain ⟨fuel, rfl⟩ : ∃ less, fuel = less + 1 := ⟨fuel - 1, by omega⟩
      rw [List.cons_append, plainTail?_letter first, ih others _ _ _ (by omega)]
      simp [Gap.folded, Gap.none, Nat.add_comm, Nat.add_left_comm]

theorem plain?_letters (ends : isFlowIndicator c = true) {letter : Char} {word : List Char}
    (letters : letter :: word ⊆ Lexeme.letters) (index line column : Nat)
    (enough : (letter :: word ++ c :: rest).length < fuel) :
    plain? true 0 fuel ⟨letter :: word ++ c :: rest, index, line, column⟩ =
      some ⟨letter :: word,
        ⟨c :: rest, index + (letter :: word).length, line, column + (letter :: word).length⟩,
          false⟩ := by
  obtain ⟨first, others⟩ := List.cons_subset.mp letters
  simp only [List.length_append, List.length_cons] at enough
  obtain ⟨fuel, rfl⟩ : ∃ less, fuel = less + 1 := ⟨fuel - 1, by omega⟩
  rw [plain?, Nat.mul_succ, List.cons_append, plainTail?_letter first,
    plainTail?_letters ends others _ _ _ _ (by omega)]
  simp [Gap.folded, Gap.none, Nat.add_comm, Nat.add_left_comm]

end Lexeme

namespace Lexer

namespace Flow

open Yaml.Flow (isNear keyMark)

/-- What the lexer remembers of the text behind it: how long it is, and where keys may have
begun. -/
structure Memory where
  index : Nat
  line : Nat
  column : Nat
  key : Option PossibleKey
  outerKeys : List (Option PossibleKey)

/-- Whether a possible key may be forgotten. -/
def IsOptional (key : Option PossibleKey) : Prop :=
  ∀ old ∈ key, old.required = false

theorem IsOptional.filter {key : Option PossibleKey} (optional : IsOptional key)
    (test : PossibleKey → Bool) : IsOptional (key.filter test) :=
  fun old kept => optional old (Option.filter_eq_some_iff.mp kept).1

theorem IsOptional.any_required {key : Option PossibleKey} (optional : IsOptional key) :
    key.any (·.required) = false := by
  cases key with
  | none => rfl
  | some old => exact optional old rfl

namespace Memory

/-- Whether no possible key is required, and there is a place for one in front of every open
collection. -/
structure Suits (memory : Memory) (depth : Nat) : Prop where
  key : IsOptional memory.key
  outerKeys : ∀ key ∈ memory.outerKeys, IsOptional key
  length : memory.outerKeys.length = depth

def isStale (memory : Memory) (key : PossibleKey) : Bool :=
  key.place.line < memory.line || key.place.index + State.longestKey < memory.index

/-- What is remembered when the possible keys that are too far back are forgotten. -/
def fresh (memory : Memory) : Memory :=
  { memory with
    key := memory.key.filter (!memory.isStale ·)
    outerKeys := memory.outerKeys.map (Option.filter (!memory.isStale ·)) }

/-- What is remembered behind a token that ends at a place. -/
def moveTo (memory : Memory) (place : Cursor) : Memory :=
  { memory with index := place.index, line := place.line, column := place.column }

theorem Suits.moveTo {memory : Memory} {depth : Nat} (suits : memory.Suits depth)
    (place : Cursor) : (memory.moveTo place).Suits depth :=
  ⟨suits.key, suits.outerKeys, suits.length⟩

theorem Suits.fresh {memory : Memory} {depth : Nat} (suits : memory.Suits depth) :
    memory.fresh.Suits depth where
  key := suits.key.filter _
  outerKeys := by
    intro key listed
    obtain ⟨old, among, rfl⟩ := List.mem_map.mp listed
    exact (suits.outerKeys old among).filter _
  length := by rw [← suits.length, Memory.fresh, List.length_map]

end Memory

/-- Where the lexer is between two tokens. -/
structure Spot where
  rest : List Char
  /-- The tokens so far, last one first. -/
  tokens : List Token
  /-- The number of collections that are open. -/
  depth : Nat
  keyAllowed : Bool

namespace Spot

def state (spot : Spot) (memory : Memory) : State :=
  ⟨⟨spot.rest, memory.index, memory.line, memory.column⟩, spot.tokens, spot.tokens.length, -1, [],
    memory.key, memory.outerKeys, spot.keyAllowed⟩

/-- Whether the lexer goes on at another spot or stops, whatever it remembers. -/
def LeadsIf (goesOn : Bool) (first second : Spot) : Prop :=
  ∀ memory fuel, memory.Suits first.depth → first.rest.length + 2 ≤ fuel → ∃ memory' fuel',
    memory'.Suits second.depth ∧ second.rest.length + 2 ≤ fuel' ∧
      State.tokens? fuel (first.state memory) =
        if goesOn then State.tokens? fuel' (second.state memory') else none

theorem LeadsIf.trans {front back : Bool} {first second third : Spot}
    (leads : LeadsIf front first second) (more : LeadsIf back second third) :
    LeadsIf (front && back) first third := by
  intro memory fuel suits enough
  obtain ⟨memory, fuel, suits, enough, same⟩ := leads memory fuel suits enough
  obtain ⟨memory, fuel, suits, enough, further⟩ := more memory fuel suits enough
  refine ⟨memory, fuel, suits, enough, ?_⟩
  rw [same, further]
  cases front <;> rfl

/-! ## Moving to a token -/

section

variable {spot : Spot} {memory : Memory} {fuel : Nat}

theorem freshKey?_state {key : Option PossibleKey} (optional : IsOptional key) :
    (spot.state memory).freshKey? key = some (key.filter (!memory.isStale ·)) := by
  cases key with
  | none => rfl
  | some old =>
      have stale : (spot.state memory).isStale old = memory.isStale old := rfl
      cases far : memory.isStale old <;>
        simp [State.freshKey?, stale, far, optional old rfl, Option.filter]

theorem dropStaleKeys?_state (suits : memory.Suits spot.depth) :
    (spot.state memory).dropStaleKeys? = some (spot.state memory.fresh) := by
  have outer : memory.outerKeys.mapM (spot.state memory).freshKey? =
      some memory.fresh.outerKeys :=
    mapM_eq_some_map fun key member => freshKey?_state (suits.outerKeys key member)
  have key : (spot.state memory).freshKey? (spot.state memory).key = some memory.fresh.key :=
    freshKey?_state suits.key
  rw [State.dropStaleKeys?, key, show (spot.state memory).outerKeys = memory.outerKeys from rfl,
    outer]
  rfl

theorem skipToToken_state (starts : StartsToken spot.rest) :
    State.skipToToken (fuel + 1) (spot.state memory) = spot.state memory := by
  obtain ⟨rest, tokens, depth, allowed⟩ := spot
  have here (tabs : Bool) : (⟨rest, memory.index, memory.line, memory.column⟩ : Cursor).dropWhile
      (fun c => c == ' ' || (tabs && c == '\t')) =
        ⟨rest, memory.index, memory.line, memory.column⟩ := by
    rw [Cursor.dropWhile, Cursor.takeWhile, starts.takeWhile]
    rfl
  have notComment : (⟨rest, memory.index, memory.line, memory.column⟩ : Cursor).head? ≠
      some '#' := starts.2
  rw [State.skipToToken]
  simp only [state, here, if_neg notComment]
  cases rest with
  | nil => rfl
  | cons c rest => simp [(starts.1 c rfl).2, State.moveTo]

/-- In front of a token only the possible keys change. -/
theorem approach?_state (starts : StartsToken spot.rest) (suits : memory.Suits spot.depth) :
    (spot.state memory).approach? (fuel + 1) = some (spot.state memory.fresh) := by
  have outside : (spot.state memory.fresh).unroll (spot.state memory.fresh).place.column =
      spot.state memory.fresh := by
    have above : (-1 : Int) ≤ memory.fresh.column := by omega
    simp [State.unroll, State.closeBlocks, state, above]
  rw [State.approach?, skipToToken_state starts, dropStaleKeys?_state suits]
  exact congrArg some outside

/-- A token is read from its first character, and the lexer goes on behind it. -/
theorem tokens?_token {c : Char} {rest : List Char} (begins : spot.rest = c :: rest)
    (starts : StartsToken spot.rest) (suits : memory.Suits spot.depth) :
    State.tokens? (fuel + 2) (spot.state memory) =
      ((spot.state memory.fresh).token? (fuel + 1) c rest).bind (State.tokens? (fuel + 1)) := by
  have place : (spot.state memory.fresh).place.rest = c :: rest := begins
  rw [State.tokens?, approach?_state starts suits]
  simp only [Option.bind_eq_bind, Option.bind_some, place]

theorem leadsIf_of_token? {goesOn : Bool} {c : Char} {rest : List Char} {second : Spot}
    (begins : spot.rest = c :: rest) (starts : StartsToken spot.rest)
    (shorter : second.rest.length ≤ rest.length)
    (reads : ∀ memory fuel, memory.Suits spot.depth → spot.rest.length < fuel → ∃ memory',
      memory'.Suits second.depth ∧ (spot.state memory).token? fuel c rest =
        if goesOn then some (second.state memory') else none) :
    LeadsIf goesOn spot second := by
  intro memory fuel suits enough
  obtain ⟨fuel, rfl⟩ : ∃ less, fuel = less + 2 := ⟨fuel - 2, by omega⟩
  obtain ⟨memory', suits', read⟩ := reads memory.fresh (fuel + 1) suits.fresh (by omega)
  refine ⟨memory', fuel + 1, suits', ?_, ?_⟩
  · rw [begins, List.length_cons] at enough
    omega
  · rw [tokens?_token begins starts suits, read]
    cases goesOn <;> rfl

/-- The end of the text is the last token. -/
theorem tokens?_end {tokens : List Token} {allowed : Bool} (suits : memory.Suits 0) :
    State.tokens? (fuel + 2) (state ⟨[], tokens, 0, allowed⟩ memory) =
      some ((Token.streamEnd :: tokens).reverse) := by
  have starts : StartsToken [] := ⟨by rintro c ⟨⟩, by decide⟩
  have approach : (state ⟨[], tokens, 0, allowed⟩ memory).approach? (fuel + 1) =
      some (state ⟨[], tokens, 0, allowed⟩ memory.fresh) := approach?_state starts suits
  have forgotten : (state ⟨[], tokens, 0, allowed⟩ memory.fresh).key.any (·.required) = false :=
    suits.fresh.key.any_required
  have outside : (state ⟨[], tokens, 0, allowed⟩ memory.fresh).unroll (-1) =
      state ⟨[], tokens, 0, allowed⟩ memory.fresh := by
    simp [State.unroll, State.closeBlocks, state]
  rw [State.tokens?, approach]
  simp only [Option.bind_eq_bind, Option.bind_some, State.endStream?, outside, State.dropKey?,
    forgotten]
  rfl

end

/-! ## Brackets and commas -/

section

variable {rest : List Char} {tokens : List Token} {depth : Nat} {allowed : Bool}

theorem dropKey?_state {spot : Spot} {memory : Memory} (suits : memory.Suits spot.depth) :
    (spot.state memory).dropKey? = some (spot.state { memory with key := none }) := by
  have forgotten : (spot.state memory).key.any (·.required) = false := suits.key.any_required
  rw [State.dropKey?, forgotten]
  rfl

/-- What is remembered in front of a token with which a key may begin. -/
def saved (spot : Spot) (memory : Memory) : Memory :=
  if spot.keyAllowed then
    { memory with key := some ⟨false, spot.tokens.length, (spot.state memory).place⟩ }
  else memory

theorem suits_saved {spot : Spot} {memory : Memory} (suits : memory.Suits depth) :
    (spot.saved memory).Suits depth := by
  unfold saved
  split
  · exact ⟨by rintro key ⟨⟩; rfl, suits.outerKeys, suits.length⟩
  · exact suits

theorem saveKey?_state {spot : Spot} {memory : Memory} (suits : memory.Suits spot.depth) :
    (spot.state memory).saveKey? = some (spot.state (spot.saved memory)) := by
  rw [State.saveKey?, dropKey?_state suits, saved]
  cases allowed : spot.keyAllowed with
  | false => simp [state, allowed]
  | true => simp [state, allowed, State.inFlow]

/-- An opening bracket may begin a key, which is remembered outside of the collection. -/
theorem leadsIf_open {first last : Char} {start stop : Token}
    (isFlow : Spot.IsFlow first last start stop) :
    LeadsIf true ⟨first :: rest, tokens, depth, allowed⟩
      ⟨rest, start :: tokens, depth + 1, true⟩ := by
  have starts : StartsToken (first :: rest) := by
    cases isFlow <;> exact Spot.startsToken_cons (by decide) (by decide) rest
  refine leadsIf_of_token? rfl starts (Nat.le_refl _) fun memory fuel suits _ => ?_
  let spot : Spot := ⟨first :: rest, tokens, depth, allowed⟩
  have suitsSaved : (spot.saved memory).Suits depth := suits_saved suits
  refine ⟨⟨(spot.saved memory).index + 1, (spot.saved memory).line, (spot.saved memory).column + 1,
    none, (spot.saved memory).key :: (spot.saved memory).outerKeys⟩, ⟨?_, ?_, ?_⟩, ?_⟩
  · rintro key ⟨⟩
  · exact List.forall_mem_cons.mpr ⟨suitsSaved.key, suitsSaved.outerKeys⟩
  · rw [List.length_cons, suitsSaved.length]
  · have read : (spot.state memory).token? fuel first rest =
        (spot.state memory).openFlow? start := by
      cases isFlow <;> simp [spot, State.token?, state, Cursor.atDocumentMark]
    rw [read, State.openFlow?, saveKey?_state suits]
    rfl

theorem leadsIf_close {first last : Char} {start stop : Token}
    (isFlow : Spot.IsFlow first last start stop) :
    LeadsIf true ⟨last :: rest, tokens, depth + 1, allowed⟩
      ⟨rest, stop :: tokens, depth, false⟩ := by
  have starts : StartsToken (last :: rest) := by
    cases isFlow <;> exact Spot.startsToken_cons (by decide) (by decide) rest
  refine leadsIf_of_token? rfl starts (Nat.le_refl _) fun memory fuel suits _ => ?_
  let spot : Spot := ⟨last :: rest, tokens, depth + 1, allowed⟩
  obtain ⟨index, line, column, key, outerKeys⟩ := memory
  obtain ⟨outer, outerKeys, rfl⟩ := List.exists_cons_of_length_eq_add_one suits.length
  obtain ⟨optional, optionals⟩ := List.forall_mem_cons.mp suits.outerKeys
  refine ⟨⟨index + 1, line, column + 1, outer, outerKeys⟩,
    ⟨optional, optionals, Nat.succ.inj suits.length⟩, ?_⟩
  have read : (spot.state ⟨index, line, column, key, outer :: outerKeys⟩).token? fuel last rest =
      (spot.state ⟨index, line, column, key, outer :: outerKeys⟩).closeFlow? stop := by
    cases isFlow <;> simp [spot, State.token?, state, Cursor.atDocumentMark]
  rw [read, State.closeFlow?, dropKey?_state suits]
  rfl

theorem leadsIf_comma :
    LeadsIf true ⟨',' :: rest, tokens, depth, allowed⟩
      ⟨rest, .flowEntry :: tokens, depth, true⟩ := by
  have starts : StartsToken (',' :: rest) := Spot.startsToken_cons (by decide) (by decide) rest
  refine leadsIf_of_token? rfl starts (Nat.le_refl _) fun memory fuel suits _ => ?_
  let spot : Spot := ⟨',' :: rest, tokens, depth, allowed⟩
  refine ⟨{ memory with index := memory.index + 1, column := memory.column + 1, key := none },
    ⟨by rintro key ⟨⟩, suits.outerKeys, suits.length⟩, ?_⟩
  have read : (spot.state memory).token? fuel ',' rest =
      State.flowEntry? (spot.state memory) := by
    simp [spot, State.token?, state, Cursor.atDocumentMark]
  rw [read, State.flowEntry?, dropKey?_state suits]
  rfl

/-! ## Texts -/

/-- What is remembered behind a text that ends in a column. -/
def behindText (spot : Spot) (memory : Memory) (text : String) (column : Nat) : Memory :=
  (spot.saved memory).moveTo
    ⟨[], memory.index + (Json.quote text).length,
      memory.line + text.toList.countP Lexeme.isRawBreak, column⟩

theorem token?_quote (text : String) (rest : List Char) (tokens : List Token) (allowed : Bool)
    {memory : Memory} (suits : memory.Suits depth) {fuel : Nat}
    (enough : (Json.quote text ++ rest).length < fuel) :
    ∃ column, (state ⟨Json.quote text ++ rest, tokens, depth, allowed⟩ memory).token? fuel '"'
        (text.toList.flatMap Json.escape ++ ['"'] ++ rest) =
      if !Lexeme.holdsMark text.toList then
        some (state ⟨rest, .scalar (Lexeme.folded text.toList) false :: tokens, depth, false⟩
          (behindText ⟨Json.quote text ++ rest, tokens, depth, allowed⟩ memory text column))
      else none := by
  let spot : Spot := ⟨Json.quote text ++ rest, tokens, depth, allowed⟩
  have place : (spot.state (spot.saved memory)).place =
      ⟨Json.quote text ++ rest, memory.index, memory.line, memory.column⟩ := by
    cases allowed <;> rfl
  obtain ⟨column, same⟩ := Lexeme.quoted?_quote text rest fuel memory.index memory.line
    memory.column enough
  refine ⟨column, ?_⟩
  have read : (spot.state memory).token? fuel '"'
      (text.toList.flatMap Json.escape ++ ['"'] ++ rest) =
        (spot.state memory).lexeme? (Lexeme.quoted? true fuel) (.scalar · false) := by
    simp [spot, State.token?, state, Cursor.atDocumentMark, Json.quote]
  rw [read, State.lexeme?, saveKey?_state suits]
  simp only [Option.bind_eq_bind, Option.bind_some, place, same]
  cases Lexeme.holdsMark text.toList with
  | true => rfl
  | false => cases allowed <;> rfl

theorem quote_append (text : String) (rest : List Char) :
    Json.quote text ++ rest = '"' :: (text.toList.flatMap Json.escape ++ ['"'] ++ rest) :=
  rfl

theorem startsToken_quote (text : String) (rest : List Char) :
    StartsToken (Json.quote text ++ rest) :=
  Spot.startsToken_cons (by decide) (by decide) _

/-- A text is read, unless a mark of a document stands in it. -/
theorem leadsIf_quote (text : String) :
    LeadsIf (!Lexeme.holdsMark text.toList) ⟨Json.quote text ++ rest, tokens, depth, allowed⟩
      ⟨rest, .scalar (Lexeme.folded text.toList) false :: tokens, depth, false⟩ := by
  refine leadsIf_of_token? (quote_append text rest) (startsToken_quote text rest)
    (by rw [List.length_append]; exact Nat.le_add_left _ _) fun memory fuel suits enough => ?_
  obtain ⟨column, read⟩ := token?_quote text rest tokens allowed suits enough
  exact ⟨_, (suits_saved suits).moveTo _, read⟩

/-! ## Keys -/

/-- Behind a key its place is remembered, unless it is too far back. -/
theorem fresh_key_behindText (memory : Memory) (key : String) (column : Nat) :
    (behindText ⟨Json.quote key ++ rest, tokens, depth, true⟩ memory key column).fresh.key =
      if isNear key then
        some ⟨false, tokens.length,
          ⟨Json.quote key ++ rest, memory.index, memory.line, memory.column⟩⟩
      else none := by
  have laterLine : decide (memory.line < memory.line + key.toList.countP Lexeme.isRawBreak) =
      key.toList.any Lexeme.isRawBreak := by
    rw [Bool.eq_iff_iff, decide_eq_true_iff, Nat.lt_add_right_iff_pos, List.countP_pos_iff,
      List.any_eq_true]
  have far : decide (memory.index + State.longestKey < memory.index + (Json.quote key).length) =
      !decide ((Json.quote key).length ≤ State.longestKey) := by
    rw [← decide_not, decide_eq_decide]
    omega
  have stale : (behindText ⟨Json.quote key ++ rest, tokens, depth, true⟩ memory key column).isStale
      ⟨false, tokens.length,
        ⟨Json.quote key ++ rest, memory.index, memory.line, memory.column⟩⟩ = !isNear key := by
    change (decide (memory.line < memory.line + key.toList.countP Lexeme.isRawBreak) ||
      decide (memory.index + State.longestKey < memory.index + (Json.quote key).length)) = _
    rw [laterLine, far, isNear, Bool.not_and, Bool.not_not]
  have kept : (behindText ⟨Json.quote key ++ rest, tokens, depth, true⟩ memory key
      column).fresh.key =
        Option.filter (fun old => !(behindText ⟨Json.quote key ++ rest, tokens, depth, true⟩ memory
          key column).isStale old)
          (some ⟨false, tokens.length,
            ⟨Json.quote key ++ rest, memory.index, memory.line, memory.column⟩⟩) := rfl
  rw [kept, Option.filter, stale, Bool.not_not]

/-- A colon marks the key in front of it, where there is a possible one. -/
theorem token?_colon {memory : Memory} (suits : memory.Suits (depth + 1)) {token : Token}
    {place : Cursor} (fuel : Nat) (near : Bool)
    (key : memory.key = if near then some ⟨false, tokens.length, place⟩ else none) :
    (state ⟨':' :: rest, token :: tokens, depth + 1, false⟩ memory).token? fuel ':' rest =
      some (state
        ⟨rest, .value :: token :: ((if near then [.key] else []) ++ tokens), depth + 1, false⟩
        { memory with index := memory.index + 1, column := memory.column + 1, key := none }) := by
  let spot : Spot := ⟨':' :: rest, token :: tokens, depth + 1, false⟩
  have nonempty : memory.outerKeys ≠ [] := List.ne_nil_of_length_eq_add_one suits.length
  have inFlow (state : State) (same : state.outerKeys = memory.outerKeys) :
      state.inFlow = true := by
    simp [State.inFlow, same, nonempty]
  have read : (spot.state memory).token? fuel ':' rest = (spot.state memory).value? := by
    simp [State.token?, spot, state, Cursor.atDocumentMark, State.inFlow, nonempty]
  have behind : tokens.length + 1 - tokens.length = 1 := by omega
  rw [read]
  cases near with
  | true =>
      simp [spot, state, State.value?, key, State.insert, State.openBlock, inFlow, behind,
        State.allowKey, State.skip, State.moveTo, State.emit, Cursor.skip]
  | false =>
      simp [spot, state, State.value?, key, State.openBlockHere, State.openBlock, inFlow,
        State.allowKey, State.skip, State.moveTo, State.emit, Cursor.skip]

/-- A key is read up to its colon, which marks it if it is near. -/
theorem leadsIf_key (key : String) :
    LeadsIf (!Lexeme.holdsMark key.toList)
      ⟨Json.quote key ++ ':' :: rest, tokens, depth + 1, true⟩
      ⟨rest, .value :: .scalar (Lexeme.folded key.toList) false :: (keyMark key ++ tokens),
        depth + 1, false⟩ := by
  intro memory fuel suits enough
  simp only [List.length_append, List.length_cons] at enough
  obtain ⟨fuel, rfl⟩ : ∃ less, fuel = less + 3 := ⟨fuel - 3, by omega⟩
  let spot : Spot := ⟨Json.quote key ++ ':' :: rest, tokens, depth + 1, true⟩
  let colon : Spot :=
    ⟨':' :: rest, .scalar (Lexeme.folded key.toList) false :: tokens, depth + 1, false⟩
  have short : (Json.quote key ++ ':' :: rest).length < fuel + 2 := by
    simp only [List.length_append, List.length_cons]
    omega
  obtain ⟨column, read⟩ := token?_quote key (':' :: rest) tokens true suits.fresh short
  let passed := spot.behindText memory.fresh key column
  have suitsPassed : passed.Suits (depth + 1) := (suits_saved suits.fresh).moveTo _
  have marked : (colon.state passed.fresh).token? (fuel + 1) ':' rest = _ :=
    token?_colon suitsPassed.fresh (fuel + 1) (isNear key)
      (fresh_key_behindText memory.fresh key column)
  have starts : StartsToken (':' :: rest) := Spot.startsToken_cons (by decide) (by decide) rest
  let next : Memory := { passed.fresh with
    index := passed.fresh.index + 1, column := passed.fresh.column + 1, key := none }
  have suitsNext : next.Suits (depth + 1) :=
    ⟨by rintro old ⟨⟩, suitsPassed.fresh.outerKeys, suitsPassed.fresh.length⟩
  refine ⟨next, fuel + 1, suitsNext, ?_, ?_⟩
  · have present : 0 < (Json.quote key).length := by simp [Json.quote]
    simp only
    omega
  · rw [tokens?_token (quote_append key (':' :: rest)) (startsToken_quote key _) suits, read]
    cases Lexeme.holdsMark key.toList with
    | true => rfl
    | false =>
        change State.tokens? (fuel + 2) (colon.state passed) = _
        rw [tokens?_token rfl starts suitsPassed, marked]
        rfl

/-! ## Words -/

theorem token?_letter {letter : Char} (first : letter ∈ Lexeme.letters) (memory : Memory)
    (fuel : Nat) :
    (state ⟨letter :: rest, tokens, depth, allowed⟩ memory).token? fuel letter rest =
      (state ⟨letter :: rest, tokens, depth, allowed⟩ memory).plain? fuel := by
  obtain ⟨word, -, notIndicator, notDot⟩ := Lexeme.of_mem_letters letter first
  have starts (inFlow : Bool) : State.startsPlain inFlow letter rest = true := by
    simp [State.startsPlain, notIndicator, word]
  simp only [State.isIndicator, List.contains_cons, List.contains_nil, Bool.or_eq_false_iff,
    beq_eq_false_iff_ne] at notIndicator
  simp [State.token?, state, Cursor.atDocumentMark, notIndicator, notDot, starts]

theorem plain?_state {spot : Spot} {memory : Memory} (suits : memory.Suits spot.depth)
    (inside : 0 < spot.depth) {fuel : Nat} {read : Lexeme.Plain}
    (reads : Lexeme.plain? true 0 fuel (spot.state memory).place = some read) :
    (spot.state memory).plain? fuel =
      some (state ⟨read.place.rest, .scalar read.text true :: spot.tokens, spot.depth, read.broken⟩
        ((spot.saved memory).moveTo read.place)) := by
  have suitsSaved : (spot.saved memory).Suits spot.depth := suits_saved suits
  have inFlow : (spot.state (spot.saved memory)).inFlow = true := by
    have nonempty : (spot.saved memory).outerKeys ≠ [] :=
      List.ne_nil_of_length_pos (suitsSaved.length ▸ inside)
    simp [State.inFlow, state, nonempty]
  have outside : (spot.state (spot.saved memory)).indent + 1 = 0 := rfl
  have place : (spot.state (spot.saved memory)).place = (spot.state memory).place := by
    cases allowed : spot.keyAllowed <;> simp [saved, state, allowed]
  rw [State.plain?, saveKey?_state suits]
  simp only [Option.bind_eq_bind, Option.bind_some, inFlow, outside, place, reads]
  rfl

/-- A word is read up to what ends its item. -/
theorem leadsIf_word {c letter : Char} {word : List Char}
    (letters : letter :: word ⊆ Lexeme.letters)
    (ends : Lexeme.isFlowIndicator c = true) :
    LeadsIf true ⟨letter :: word ++ c :: rest, tokens, depth + 1, allowed⟩
      ⟨c :: rest, .scalar (letter :: word) true :: tokens, depth + 1, false⟩ := by
  have first := letters List.mem_cons_self
  obtain ⟨isWord, -, notIndicator, -⟩ := Lexeme.of_mem_letters letter first
  have notComment : letter ≠ '#' := by
    rintro rfl
    cases notIndicator
  refine leadsIf_of_token? rfl (Spot.startsToken_cons isWord notComment _) (by simp)
    fun memory fuel suits enough => ?_
  have read := Lexeme.plain?_letters ends letters memory.index memory.line memory.column enough
  exact ⟨_, (suits_saved suits).moveTo _,
    (token?_letter first memory fuel).trans (plain?_state suits (Nat.succ_pos depth) read)⟩

end

/-! ## Values, items and entries -/

/-- Whether no mark of a document stands in a text. -/
def isUnmarked (text : String) : Bool :=
  !Lexeme.holdsMark text.toList

/-- Whether a text goes on with what ends an item. -/
def EndsItem (rest : List Char) : Prop :=
  ∃ c more, rest = c :: more ∧ Lexeme.isFlowIndicator c = true

theorem endsItem_remainingItems (items : List Json) (more : List Char) :
    EndsItem (Json.remainingItems items ++ more) := by
  cases items with
  | nil => exact ⟨']', more, rfl, by decide⟩
  | cons item items => exact ⟨',', _, rfl, by decide⟩

theorem endsItem_remainingEntries (entries : List (String × Json)) (more : List Char) :
    EndsItem (Json.remainingEntries entries ++ more) := by
  cases entries with
  | nil => exact ⟨'\x7d', more, rfl, by decide⟩
  | cons entry entries => exact ⟨',', _, rfl, by decide⟩

theorem reverse_keyMark (key : String) : (keyMark key).reverse = keyMark key := by
  unfold keyMark
  split <;> rfl

section

variable {rest : List Char} {tokens : List Token} {depth : Nat}

/-- Behind an opening bracket or a comma an item is read, and those behind it up to the end of
their list. -/
theorem leadsIf_items {before : Spot} {item : Json} {items : List Json} {first others : Bool}
    (begins : LeadsIf true before
      ⟨item.characters ++ (Json.remainingItems items ++ rest), tokens, depth + 1, true⟩)
    (leads : LeadsIf first
      ⟨item.characters ++ (Json.remainingItems items ++ rest), tokens, depth + 1, true⟩
      ⟨Json.remainingItems items ++ rest, (Yaml.Flow.tokens item).reverse ++ tokens, depth + 1,
        false⟩)
    (leadsOn : LeadsIf others
      ⟨Json.remainingItems items ++ rest, (Yaml.Flow.tokens item).reverse ++ tokens, depth + 1,
        false⟩
      ⟨rest, (Yaml.Flow.remainingItems items).reverse ++
        ((Yaml.Flow.tokens item).reverse ++ tokens), depth, false⟩) :
    LeadsIf (first && others) before
      ⟨rest, (Yaml.Flow.tokens item ++ Yaml.Flow.remainingItems items).reverse ++ tokens, depth,
        false⟩ := by
  rw [List.reverse_append, List.append_assoc]
  exact begins.trans (leads.trans leadsOn)

theorem leadsIf_entries {before : Spot} {key : String} {value : Json}
    {entries : List (String × Json)} {first others : Bool}
    (begins : LeadsIf true before
      ⟨Json.quote key ++ ':' :: (value.characters ++ (Json.remainingEntries entries ++ rest)),
        tokens, depth + 1, true⟩)
    (leads : LeadsIf first
      ⟨value.characters ++ (Json.remainingEntries entries ++ rest),
        .value :: Yaml.Flow.textToken key :: (keyMark key ++ tokens), depth + 1, false⟩
      ⟨Json.remainingEntries entries ++ rest, (Yaml.Flow.tokens value).reverse ++
        .value :: Yaml.Flow.textToken key :: (keyMark key ++ tokens), depth + 1, false⟩)
    (leadsOn : LeadsIf others
      ⟨Json.remainingEntries entries ++ rest, (Yaml.Flow.tokens value).reverse ++
        .value :: Yaml.Flow.textToken key :: (keyMark key ++ tokens), depth + 1, false⟩
      ⟨rest, (Yaml.Flow.remainingEntries entries).reverse ++ ((Yaml.Flow.tokens value).reverse ++
        .value :: Yaml.Flow.textToken key :: (keyMark key ++ tokens)), depth, false⟩) :
    LeadsIf (isUnmarked key && first && others) before
      ⟨rest, (keyMark key ++ Yaml.Flow.textToken key :: .value ::
        (Yaml.Flow.tokens value ++ Yaml.Flow.remainingEntries entries)).reverse ++ tokens, depth,
        false⟩ := by
  have tokensBehind : (keyMark key ++ Yaml.Flow.textToken key :: .value ::
      (Yaml.Flow.tokens value ++ Yaml.Flow.remainingEntries entries)).reverse ++ tokens =
        (Yaml.Flow.remainingEntries entries).reverse ++ ((Yaml.Flow.tokens value).reverse ++
          .value :: Yaml.Flow.textToken key :: (keyMark key ++ tokens)) := by
    simp [reverse_keyMark]
  rw [tokensBehind, Bool.and_assoc]
  exact begins.trans ((leadsIf_key key).trans (leads.trans leadsOn))

end

mutual

/-- Plain data is read, unless a mark of a document stands in it.  A word has to stand inside of
a collection. -/
theorem leadsIf_characters (bound depth : Nat) (allowed : Bool) (tokens : List Token)
    (rest : List Char) : (value : Json) → value.fits bound = true →
    ((∀ entries, value ≠ .object entries) → 0 < depth ∧ EndsItem rest) →
    LeadsIf (value.everyText isUnmarked isUnmarked)
      ⟨value.characters ++ rest, tokens, depth, allowed⟩
      ⟨rest, (Yaml.Flow.tokens value).reverse ++ tokens, depth, false⟩
  | .null, _, ends | .bool true, _, ends | .bool false, _, ends => by
      obtain ⟨inside, c, more, rfl, indicator⟩ := ends fun _ => Json.noConfusion
      obtain ⟨depth, rfl⟩ := Nat.exists_eq_add_of_le' inside
      exact leadsIf_word (by decide) indicator
  | .number _, fits, _ => by cases bound <;> cases fits
  | .string text, _, _ => leadsIf_quote text
  | .array [], _, _ => (leadsIf_open .list).trans (leadsIf_close .list)
  | .array (item :: items), fits, _ => by
      cases bound with
      | zero => cases fits
      | succ bound =>
          obtain ⟨fitsItem, fitsItems⟩ := Bool.and_eq_true_iff.mp fits
          have written : (Json.array (item :: items)).characters ++ rest =
              '[' :: (item.characters ++ (Json.remainingItems items ++ rest)) := by
            simp [Json.characters]
          have read : (Yaml.Flow.tokens (.array (item :: items))).reverse ++ tokens =
              (Yaml.Flow.tokens item ++ Yaml.Flow.remainingItems items).reverse ++
                .flowSequenceStart :: tokens := by
            simp [Yaml.Flow.tokens]
          rw [written, read]
          exact leadsIf_items (leadsIf_open .list)
            (leadsIf_characters bound (depth + 1) true _ _ item fitsItem fun _ =>
              ⟨Nat.succ_pos depth, endsItem_remainingItems items rest⟩)
            (leadsIf_remainingItems bound depth false _ rest items fitsItems)
  | .object [], _, _ => (leadsIf_open .mapping).trans (leadsIf_close .mapping)
  | .object ((key, value) :: entries), fits, _ => by
      cases bound with
      | zero => cases fits
      | succ bound =>
          obtain ⟨fitsValue, fitsEntries⟩ := Bool.and_eq_true_iff.mp fits
          have written : (Json.object ((key, value) :: entries)).characters ++ rest =
              '\x7b' :: (Json.quote key ++ ':' ::
                (value.characters ++ (Json.remainingEntries entries ++ rest))) := by
            simp [Json.characters]
          have read : (Yaml.Flow.tokens (.object ((key, value) :: entries))).reverse ++ tokens =
              (keyMark key ++ Yaml.Flow.textToken key :: .value ::
                (Yaml.Flow.tokens value ++ Yaml.Flow.remainingEntries entries)).reverse ++
                  .flowMappingStart :: tokens := by
            simp [Yaml.Flow.tokens]
          rw [written, read]
          exact leadsIf_entries (leadsIf_open .mapping)
            (leadsIf_characters bound (depth + 1) false _ _ value fitsValue fun _ =>
              ⟨Nat.succ_pos depth, endsItem_remainingEntries entries rest⟩)
            (leadsIf_remainingEntries bound depth false _ rest entries fitsEntries)

/-- The items of a list after its first are read, and its end. -/
theorem leadsIf_remainingItems (bound depth : Nat) (allowed : Bool) (tokens : List Token)
    (rest : List Char) : (items : List Json) → Json.allFit bound items = true →
    LeadsIf (Json.everyTextOfItems isUnmarked isUnmarked items)
      ⟨Json.remainingItems items ++ rest, tokens, depth + 1, allowed⟩
      ⟨rest, (Yaml.Flow.remainingItems items).reverse ++ tokens, depth, false⟩
  | [], _ => leadsIf_close .list
  | item :: items, fits => by
      obtain ⟨fitsItem, fitsItems⟩ := Bool.and_eq_true_iff.mp fits
      have written : Json.remainingItems (item :: items) ++ rest =
          ',' :: (item.characters ++ (Json.remainingItems items ++ rest)) := by
        simp [Json.remainingItems]
      have read : (Yaml.Flow.remainingItems (item :: items)).reverse ++ tokens =
          (Yaml.Flow.tokens item ++ Yaml.Flow.remainingItems items).reverse ++
            .flowEntry :: tokens := by
        simp [Yaml.Flow.remainingItems]
      rw [written, read]
      exact leadsIf_items leadsIf_comma
        (leadsIf_characters bound (depth + 1) true _ _ item fitsItem fun _ =>
          ⟨Nat.succ_pos depth, endsItem_remainingItems items rest⟩)
        (leadsIf_remainingItems bound depth false _ rest items fitsItems)

theorem leadsIf_remainingEntries (bound depth : Nat) (allowed : Bool) (tokens : List Token)
    (rest : List Char) : (entries : List (String × Json)) → Json.entriesFit bound entries = true →
    LeadsIf (Json.everyTextOfEntries isUnmarked isUnmarked entries)
      ⟨Json.remainingEntries entries ++ rest, tokens, depth + 1, allowed⟩
      ⟨rest, (Yaml.Flow.remainingEntries entries).reverse ++ tokens, depth, false⟩
  | [], _ => leadsIf_close .mapping
  | (key, value) :: entries, fits => by
      obtain ⟨fitsValue, fitsEntries⟩ := Bool.and_eq_true_iff.mp fits
      have written : Json.remainingEntries ((key, value) :: entries) ++ rest =
          ',' :: (Json.quote key ++ ':' ::
            (value.characters ++ (Json.remainingEntries entries ++ rest))) := by
        simp [Json.remainingEntries]
      have read : (Yaml.Flow.remainingEntries ((key, value) :: entries)).reverse ++ tokens =
          (keyMark key ++ Yaml.Flow.textToken key :: .value ::
            (Yaml.Flow.tokens value ++ Yaml.Flow.remainingEntries entries)).reverse ++
              .flowEntry :: tokens := by
        simp [Yaml.Flow.remainingEntries]
      rw [written, read]
      exact leadsIf_entries leadsIf_comma
        (leadsIf_characters bound (depth + 1) false _ _ value fitsValue fun _ =>
          ⟨Nat.succ_pos depth, endsItem_remainingEntries entries rest⟩)
        (leadsIf_remainingEntries bound depth false _ rest entries fitsEntries)

end

end Spot

end Flow

/-- The tokens of the compact text of an object, unless a mark of a document stands in it. -/
theorem State.tokens?_characters (entries : List (String × Json)) {bound : Nat}
    (fits : (Json.object entries).fits bound = true) :
    State.tokens? ((Json.object entries).characters.length + 2)
        (State.start (Json.object entries).characters) =
      if (Json.object entries).everyText Flow.Spot.isUnmarked Flow.Spot.isUnmarked then
        some (Yaml.Flow.tokens (.object entries) ++ [.streamEnd])
      else none := by
  have leads := Flow.Spot.leadsIf_characters bound 0 true [] [] (.object entries) fits
    fun notObject => absurd rfl (notObject entries)
  rw [List.append_nil] at leads
  have suits : (⟨0, 0, 0, none, []⟩ : Flow.Memory).Suits 0 :=
    ⟨by rintro old ⟨⟩, by simp, rfl⟩
  obtain ⟨memory, fuel, suitsEnd, enough, same⟩ := leads _ _ suits (Nat.le_refl _)
  obtain ⟨fuel, rfl⟩ := Nat.exists_eq_add_of_le' enough
  refine same.trans ?_
  split
  · refine (Flow.Spot.tokens?_end suitsEnd).trans ?_
    simp
  · rfl

end Lexer

end DeployTarget.Yaml
