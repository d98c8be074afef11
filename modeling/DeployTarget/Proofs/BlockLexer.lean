import DeployTarget.Proofs.BlockTree
import DeployTarget.Proofs.LineBlock

/-!
# The lexer on block documents

What the lexer does between two tokens outside of flow collections: it goes over blanks and to
the next line, closes what ends there, and reads marks, keys and texts.  Each rule leads from
a spot to a spot; lines and characters are not counted, and a possible key is forgotten as
soon as its line ends.
-/

namespace DeployTarget.Yaml.Lexer

open Writer

/-- The tokens so far, last one first, and the block collections that are open. -/
structure Blocks where
  tokens : List Token
  indent : Int
  outer : List Int

namespace Blocks

/-- Opens a collection at a column unless one is open there. -/
def opened (blocks : Blocks) (column : Nat) (token : Token) : Blocks :=
  if column ≤ blocks.indent then blocks
  else ⟨token :: blocks.tokens, column, blocks.indent :: blocks.outer⟩

def emit (blocks : Blocks) (token : Token) : Blocks :=
  { blocks with tokens := token :: blocks.tokens }

/-- Closes the innermost collection. -/
def closed (blocks : Blocks) : Blocks :=
  ⟨.blockEnd :: blocks.tokens, blocks.outer.headD (-1), blocks.outer.tail⟩

end Blocks

/-- Where the lexer is between two tokens. -/
structure Spot where
  rest : List Char
  column : Nat
  blocks : Blocks
  keyAllowed : Bool

namespace Spot

/-- The state at a spot with a possible key. -/
def stateWith (spot : Spot) (key : Option PossibleKey) (index line : Nat) : State :=
  ⟨⟨spot.rest, index, line, spot.column⟩, spot.blocks.tokens, spot.blocks.tokens.length,
    spot.blocks.indent, spot.blocks.outer, key, [], spot.keyAllowed⟩

def state (spot : Spot) (index line : Nat) : State :=
  spot.stateWith none index line

/-- Whether the lexer goes on at another spot, wherever in the text the first one is. -/
def Leads (first second : Spot) : Prop :=
  ∀ index line fuel, first.rest.length + 2 ≤ fuel → ∃ index' line' fuel',
    second.rest.length + 2 ≤ fuel' ∧
      State.tokens? fuel (first.state index line) = State.tokens? fuel' (second.state index' line')

theorem Leads.refl (spot : Spot) : Leads spot spot :=
  fun index line fuel enough => ⟨index, line, fuel, enough, rfl⟩

theorem Leads.trans {first second third : Spot} (front : Leads first second)
    (back : Leads second third) : Leads first third := by
  intro index line fuel enough
  obtain ⟨index, line, fuel, enough, same⟩ := front index line fuel enough
  obtain ⟨index, line, fuel, enough, more⟩ := back index line fuel enough
  exact ⟨index, line, fuel, enough, same.trans more⟩

end Spot

/-! ## Moving to a token -/

/-- Whether a text is at its end, or goes on with a token. -/
def StartsToken (rest : List Char) : Prop :=
  StartsWord rest ∧ rest.head? ≠ some '#'

/-- Whether a text goes on with a token on a line that is indented no further than a column. -/
def Resumes (column : Nat) (rest : List Char) : Prop :=
  ∃ count behind, count ≤ column ∧ StartsToken behind ∧ rest = blanks count ++ behind

section

variable {blocks : Blocks} {rest : List Char} {column count : Nat} {allowed : Bool}
  {key : Option PossibleKey} {index line fuel : Nat}

theorem StartsToken.takeWhile (starts : StartsToken rest) (tabs : Bool) :
    rest.takeWhile (fun c => c == ' ' || (tabs && c == '\t')) = [] := by
  cases rest with
  | nil => rfl
  | cons c rest =>
      have word := (starts.1 c rfl).1
      simp only [isWhite, Bool.or_eq_false_iff] at word
      simp [word]

theorem skipToToken_blanks (count : Nat) (starts : StartsToken rest) :
    State.skipToToken (fuel + 1)
        (Spot.stateWith ⟨blanks count ++ rest, column, blocks, allowed⟩ key index line) =
      Spot.stateWith ⟨rest, column + count, blocks, allowed⟩ key (index + count) line := by
  have taken (tabs : Bool) : ((blanks count ++ rest).takeWhile
      fun c => c == ' ' || (tabs && c == '\t')) = blanks count := by
    rw [List.takeWhile_append_of_pos (by simp [blanks]), starts.takeWhile, List.append_nil]
  have behind (tabs : Bool) : (⟨blanks count ++ rest, index, line, column⟩ : Cursor).dropWhile
      (fun c => c == ' ' || (tabs && c == '\t')) = ⟨rest, index + count, line, column + count⟩ := by
    rw [Cursor.dropWhile, Cursor.takeWhile, taken]
    simp [Cursor.skip, blanks]
  have notComment : (⟨rest, index + count, line, column + count⟩ : Cursor).head? ≠ some '#' :=
    starts.2
  rw [State.skipToToken]
  simp only [Spot.stateWith, behind, if_neg notComment]
  cases rest with
  | nil => rfl
  | cons c rest => simp [(starts.1 c rfl).2, State.moveTo]

/-- Behind a line break a key may begin. -/
theorem skipToToken_line (starts : StartsToken rest) :
    State.skipToToken (fuel + 2)
        (Spot.stateWith ⟨'\n' :: (blanks count ++ rest), column, blocks, allowed⟩ key index line) =
      Spot.stateWith ⟨rest, count, blocks, true⟩ key (index + 1 + count) (line + 1) := by
  have step : State.skipToToken (fuel + 2)
      (Spot.stateWith ⟨'\n' :: (blanks count ++ rest), column, blocks, allowed⟩ key index line) =
      State.skipToToken (fuel + 1)
        (Spot.stateWith ⟨blanks count ++ rest, 0, blocks, true⟩ key (index + 1) (line + 1)) := by
    rw [State.skipToToken]
    simp [Spot.stateWith, State.inFlow, Cursor.dropWhile, Cursor.takeWhile, Cursor.skip,
      Cursor.head?, show isBreak '\n' = true by decide, State.moveTo, State.allowKey,
      Cursor.nextLine]
  rw [step, skipToToken_blanks count starts, Nat.zero_add]

/-- Whether a possible key may be forgotten on a line. -/
def IsForgotten (line : Nat) (key : Option PossibleKey) : Prop :=
  ∀ old ∈ key, old.required = false ∧ old.place.line < line

theorem dropStaleKeys?_stateWith (spot : Spot) (forgotten : IsForgotten line key) :
    (spot.stateWith key index line).dropStaleKeys? = some (spot.state index line) := by
  cases key with
  | none => rfl
  | some old =>
      obtain ⟨optional, earlier⟩ := forgotten old rfl
      simp [State.dropStaleKeys?, State.freshKey?, State.isStale, Spot.stateWith, earlier, optional,
        Spot.state]

theorem approach?_blanks (count : Nat) (starts : StartsToken rest)
    (forgotten : IsForgotten line key) :
    State.approach? (Spot.stateWith ⟨blanks count ++ rest, column, blocks, allowed⟩ key index line)
        (fuel + 1) =
      some ((Spot.state ⟨rest, column + count, blocks, allowed⟩ (index + count) line).unroll
        (column + count : Nat)) := by
  rw [State.approach?, skipToToken_blanks count starts, dropStaleKeys?_stateWith _ forgotten]
  rfl

theorem approach?_line (starts : StartsToken rest) (forgotten : IsForgotten (line + 1) key) :
    State.approach?
        (Spot.stateWith ⟨'\n' :: (blanks count ++ rest), column, blocks, allowed⟩ key index line)
        (fuel + 2) =
      some ((Spot.state ⟨rest, count, blocks, true⟩ (index + 1 + count) (line + 1)).unroll
        count) := by
  rw [State.approach?, skipToToken_line starts, dropStaleKeys?_stateWith _ forgotten]
  rfl

theorem approach?_indentation (starts : StartsToken rest) :
    (Spot.state ⟨blanks count ++ rest, 0, blocks, allowed⟩ index line).approach? (fuel + 1) =
      some ((Spot.state ⟨rest, count, blocks, allowed⟩ (index + count) line).unroll count) := by
  have forgotten : IsForgotten line none := by
    rintro old ⟨⟩
  have read : (Spot.stateWith ⟨blanks count ++ rest, 0, blocks, allowed⟩ none index line).approach?
      (fuel + 1) = some ((Spot.state ⟨rest, 0 + count, blocks, allowed⟩ (index + count) line).unroll
        (0 + count : Nat)) := approach?_blanks count starts forgotten
  rwa [Nat.zero_add] at read

theorem approach?_token (starts : StartsToken rest) :
    (Spot.state ⟨rest, column, blocks, allowed⟩ index line).approach? (fuel + 1) =
      some ((Spot.state ⟨rest, column, blocks, allowed⟩ index line).unroll column) := by
  have forgotten : IsForgotten line none := by
    rintro old ⟨⟩
  have read : (Spot.stateWith ⟨blanks 0 ++ rest, column, blocks, allowed⟩ none index line).approach?
      (fuel + 1) = some ((Spot.state ⟨rest, column + 0, blocks, allowed⟩ (index + 0) line).unroll
        (column + 0 : Nat)) := approach?_blanks 0 starts forgotten
  exact read

theorem tokens?_congr {first second : State} (same : first.approach? fuel = second.approach? fuel) :
    State.tokens? (fuel + 1) first = State.tokens? (fuel + 1) second := by
  rw [State.tokens?, State.tokens?, same]

end

namespace Spot

variable {blocks : Blocks} {rest : List Char} {column count : Nat} {allowed : Bool}

/-! ## Blanks and lines -/

theorem leads_blanks (starts : StartsToken rest) :
    Leads ⟨blanks count ++ rest, column, blocks, allowed⟩
      ⟨rest, column + count, blocks, allowed⟩ := by
  intro index line fuel enough
  simp only [List.length_append, length_blanks] at enough
  obtain ⟨fuel, rfl⟩ : ∃ less, fuel = less + 1 + 1 := ⟨fuel - 2, by omega⟩
  refine ⟨index + count, line, fuel + 1 + 1, by simp only; omega, tokens?_congr ?_⟩
  rw [approach?_token starts]
  exact approach?_blanks count starts (by simp [IsForgotten])

/-- A possible key is forgotten behind its line. -/
theorem tokens?_line {indent : Nat} {more : List Char} {key : Option PossibleKey}
    {index line fuel : Nat} (resumes : Resumes indent more) (forgotten : IsForgotten (line + 1) key)
    (enough : ('\n' :: more).length + 2 ≤ fuel) :
    State.tokens? fuel (stateWith ⟨'\n' :: more, column, blocks, allowed⟩ key index line) =
      State.tokens? fuel (state ⟨more, 0, blocks, true⟩ (index + 1) (line + 1)) := by
  obtain ⟨count, behind, -, starts, rfl⟩ := resumes
  simp only [List.length_cons] at enough
  obtain ⟨fuel, rfl⟩ : ∃ less, fuel = less + 2 + 1 := ⟨fuel - 3, by omega⟩
  refine tokens?_congr ?_
  rw [approach?_line starts forgotten, approach?_indentation starts]

theorem leads_line {indent : Nat} {more : List Char} (resumes : Resumes indent more) :
    Leads ⟨'\n' :: more, column, blocks, allowed⟩ ⟨more, 0, blocks, true⟩ := by
  intro index line fuel enough
  refine ⟨index + 1, line + 1, fuel, ?_, tokens?_line resumes (by simp [IsForgotten]) enough⟩
  simp only [List.length_cons] at enough ⊢
  omega

theorem unroll_closed {column : Nat} (outside : (column : Int) < blocks.indent)
    (held : blocks.outer ≠ []) (index line : Nat) :
    (Spot.state ⟨rest, column, blocks, allowed⟩ index line).unroll column =
      (Spot.state ⟨rest, column, blocks.closed, allowed⟩ index line).unroll column := by
  obtain ⟨tokens, indent, outer⟩ := blocks
  obtain ⟨parent, outer, rfl⟩ := List.exists_cons_of_ne_nil held
  have further : ¬ indent ≤ column := Int.not_le.mpr outside
  simp [State.unroll, state, stateWith, State.closeBlocks, State.inFlow, further, Blocks.closed,
    State.emit]

/-- A collection is closed in front of a line that is indented less. -/
theorem leads_closed {indent : Nat} {more : List Char} (resumes : Resumes indent more)
    (outside : (indent : Int) < blocks.indent) (held : blocks.outer ≠ []) :
    Leads ⟨more, 0, blocks, allowed⟩ ⟨more, 0, blocks.closed, allowed⟩ := by
  intro index line fuel enough
  obtain ⟨count, behind, less, starts, rfl⟩ := resumes
  obtain ⟨fuel, rfl⟩ : ∃ less, fuel = less + 1 + 1 := ⟨fuel - 2, by simp only at enough; omega⟩
  refine ⟨index, line, fuel + 1 + 1, enough, tokens?_congr ?_⟩
  rw [approach?_indentation starts, approach?_indentation starts,
    unroll_closed (by omega) held]

/-! ## Marks -/

theorem unroll_inside (inside : blocks.indent ≤ column) (key : Option PossibleKey)
    (index line : Nat) :
    (stateWith ⟨rest, column, blocks, allowed⟩ key index line).unroll column =
      stateWith ⟨rest, column, blocks, allowed⟩ key index line := by
  simp [State.unroll, stateWith, State.closeBlocks, inside]

theorem tokens?_token {c : Char} {index line fuel : Nat} {next : State}
    (starts : StartsToken (c :: rest)) (inside : blocks.indent ≤ column)
    (read : (state ⟨c :: rest, column, blocks, allowed⟩ index line).token? (fuel + 1) c rest =
      some next) :
    State.tokens? (fuel + 2) (state ⟨c :: rest, column, blocks, allowed⟩ index line) =
      State.tokens? (fuel + 1) next := by
  rw [State.tokens?, approach?_token starts, state, unroll_inside inside]
  simp only [Option.bind_eq_bind, Option.bind_some]
  rw [state] at read
  rw [show (stateWith ⟨c :: rest, column, blocks, allowed⟩ none index line).place.rest = c :: rest
    from rfl]
  simp only [read, Option.bind_some]

/-- A token that is read from its first character leads behind it. -/
theorem leads_of_token? {c : Char} {second : Spot} (starts : StartsToken (c :: rest))
    (inside : blocks.indent ≤ column) (shorter : second.rest.length ≤ rest.length)
    (reads : ∀ index line fuel, ∃ index' line',
      (state ⟨c :: rest, column, blocks, allowed⟩ index line).token? fuel c rest =
        some (second.state index' line')) :
    Leads ⟨c :: rest, column, blocks, allowed⟩ second := by
  intro index line fuel enough
  simp only [List.length_cons] at enough
  obtain ⟨fuel, rfl⟩ : ∃ less, fuel = less + 2 := ⟨fuel - 2, by omega⟩
  obtain ⟨index', line', read⟩ := reads index line (fuel + 1)
  exact ⟨index', line', fuel + 1, by omega, tokens?_token starts inside read⟩

theorem openBlockHere_state (token : Token) (index line : Nat) :
    (state ⟨rest, column, blocks, allowed⟩ index line).openBlockHere token =
      state ⟨rest, column, blocks.opened column token, allowed⟩ index line := by
  by_cases inside : (column : Int) ≤ blocks.indent <;>
    simp [State.openBlockHere, State.openBlock, State.inFlow, State.insert, state, stateWith,
      Blocks.opened, inside]

theorem startsToken_cons {c : Char} (word : isWhite c = false ∧ isBreak c = false)
    (notComment : c ≠ '#') (rest : List Char) : StartsToken (c :: rest) :=
  ⟨by rintro other ⟨⟩; exact word, by simpa using notComment⟩

/-- The marks of items, keys and values, with the tokens of the collections that they open. -/
inductive IsMark : Char → Token → Token → Prop
  | item : IsMark '-' .blockSequenceStart .blockEntry
  | key : IsMark '?' .blockMappingStart .key
  | value : IsMark ':' .blockMappingStart .value

/-- A mark opens its collection, unless it is open, and leads behind itself. -/
theorem leads_mark {mark : Char} {start token : Token} (isMark : IsMark mark start token)
    (inside : blocks.indent ≤ column) :
    Leads ⟨mark :: ' ' :: rest, column, blocks, true⟩
      ⟨' ' :: rest, column + 1, (blocks.opened column start).emit token, true⟩ := by
  have starts : StartsToken (mark :: ' ' :: rest) := by
    cases isMark <;> exact startsToken_cons (by decide) (by decide) _
  refine leads_of_token? starts inside (Nat.le_refl _) fun index line fuel =>
    ⟨index + 1, line, ?_⟩
  have noMark : (⟨mark :: ' ' :: rest, index, line, column⟩ : Cursor).atDocumentMark = false := by
    cases isMark <;> simp [Cursor.atDocumentMark]
  have opened : (state ⟨mark :: ' ' :: rest, column, blocks, true⟩ index line).openBlockHere start =
      state ⟨mark :: ' ' :: rest, column, blocks.opened column start, true⟩ index line :=
    openBlockHere_state start index line
  cases isMark with
  | item =>
      have read : (state ⟨'-' :: ' ' :: rest, column, blocks, true⟩ index line).token? fuel '-'
          (' ' :: rest) =
            State.blockEntry? (state ⟨'-' :: ' ' :: rest, column, blocks, true⟩ index line) := by
        simp [State.token?, state, stateWith, noMark, endsWord, isWhite]
      rw [read, State.blockEntry?, opened]
      rfl
  | key =>
      have read : (state ⟨'?' :: ' ' :: rest, column, blocks, true⟩ index line).token? fuel '?'
          (' ' :: rest) =
            (state ⟨'?' :: ' ' :: rest, column, blocks, true⟩ index line).explicitKey? := by
        simp [State.token?, state, stateWith, noMark, endsWord, isWhite]
      rw [read, State.explicitKey?, opened]
      rfl
  | value =>
      have read : (state ⟨':' :: ' ' :: rest, column, blocks, true⟩ index line).token? fuel ':'
          (' ' :: rest) =
            (state ⟨':' :: ' ' :: rest, column, blocks, true⟩ index line).value? := by
        simp [State.token?, state, stateWith, noMark, endsWord, isWhite]
      have noKey : (state ⟨':' :: ' ' :: rest, column, blocks, true⟩ index line).key = none := rfl
      simp only [read, State.value?, noKey, opened]
      rfl

/-! ## Texts -/

theorem startsPlain_of_isFirstIndicator {c : Char} {rest : List Char}
    (word : isWhite c = false ∧ isBreak c = false) (notIndicator : isFirstIndicator c = false)
    (inWord : (c = '?' ∨ c = ':' ∨ c = '-') → endsWord rest = false) :
    State.startsPlain false c rest = true := by
  by_cases mark : c = '?' ∨ c = ':' ∨ c = '-'
  · have inside := inWord mark
    cases rest with
    | nil => cases inside
    | cons other rest =>
        simp only [endsWord, Bool.or_eq_false_iff] at inside
        rcases mark with rfl | rfl | rfl <;> simp [State.startsPlain, endsWord, inside]
  · have plain : State.isIndicator c = false := by
      simp only [not_or] at mark
      simp_all [isFirstIndicator, State.isIndicator]
    simp [State.startsPlain, plain, word]

theorem token?_plain {c : Char} {others : List Char} (plain : Lexeme.IsPlain (c :: others))
    (tail : List Char) (safe : ∀ c ∈ tail.head?, c ≠ '-' ∧ c ≠ '.') (blocks : Blocks)
    (column : Nat) (allowed : Bool) (index line fuel : Nat) :
    (state ⟨c :: (others ++ tail), column, blocks, allowed⟩ index line).token? fuel c
        (others ++ tail) =
      (state ⟨c :: (others ++ tail), column, blocks, allowed⟩ index line).plain? fuel := by
  have noMark := plain.not_atDocumentMark safe index line column (List.cons_ne_nil c others)
  have notIndicator := plain.indicator.1
  have inWord : (c = '?' ∨ c = ':' ∨ c = '-') → endsWord (others ++ tail) = false := fun mark => by
    have inside := plain.indicator.2 mark
    cases others with
    | nil => cases inside
    | cons other others => exact inside
  have starts := startsPlain_of_isFirstIndicator plain.word notIndicator inWord
  simp only [isFirstIndicator, List.contains_cons, List.contains_nil, Bool.or_eq_false_iff,
    beq_eq_false_iff_ne] at notIndicator
  have noEntry : ¬ (c = '-' ∧ endsWord (others ++ tail) = true) := fun mark => by
    simp [inWord (.inr (.inr mark.1))] at mark
  have noKey : ¬ (c = '?' ∧ endsWord (others ++ tail) = true) := fun mark => by
    simp [inWord (.inl mark.1)] at mark
  have noValue : ¬ (c = ':' ∧ endsWord (others ++ tail) = true) := fun mark => by
    simp [inWord (.inr (.inl mark.1))] at mark
  rw [List.cons_append] at noMark
  simp [State.token?, state, stateWith, State.inFlow, noMark, notIndicator, starts, noEntry, noKey,
    noValue]

theorem startsToken_of_isPlain {c : Char} {others : List Char}
    (plain : Lexeme.IsPlain (c :: others)) (tail : List Char) :
    StartsToken (c :: (others ++ tail)) :=
  startsToken_cons plain.word plain.notComment _

/-- The possible key at a spot. -/
def savedKey (spot : Spot) (index line : Nat) : Option PossibleKey :=
  if spot.keyAllowed then
    some ⟨spot.blocks.indent == spot.column, spot.blocks.tokens.length,
      ⟨spot.rest, index, line, spot.column⟩⟩
  else none

theorem saveKey?_state (spot : Spot) (index line : Nat) :
    (spot.state index line).saveKey? =
      some (spot.stateWith (spot.savedKey index line) index line) := by
  cases allowed : spot.keyAllowed <;>
    simp [State.saveKey?, state, stateWith, savedKey, allowed, State.dropKey?, State.inFlow]

/-- Inside a collection nothing but a value can stand, so its key may be forgotten. -/
theorem isForgotten_savedKey {spot : Spot} (inside : spot.blocks.indent < spot.column)
    {line later : Nat} (earlier : line < later) (index : Nat) :
    IsForgotten later (spot.savedKey index line) := by
  intro key saved
  unfold savedKey at saved
  split at saved
  · cases saved
    exact ⟨by simpa using Int.ne_of_lt inside, earlier⟩
  · cases saved

theorem plain?_state (spot : Spot) {index line fuel : Nat} {read : Lexeme.Plain}
    (reads : Lexeme.plain? false (spot.blocks.indent + 1) fuel
      ⟨spot.rest, index, line, spot.column⟩ = some read) :
    (spot.state index line).plain? fuel =
      some (stateWith ⟨read.place.rest, read.place.column,
        spot.blocks.emit (.scalar read.text true), read.broken⟩ (spot.savedKey index line)
        read.place.index read.place.line) := by
  have read' : Lexeme.plain? (spot.stateWith (spot.savedKey index line) index line).inFlow
      ((spot.stateWith (spot.savedKey index line) index line).indent + 1) fuel
      (spot.stateWith (spot.savedKey index line) index line).place = some read := reads
  rw [State.plain?, saveKey?_state]
  simp only [Option.bind_eq_bind, Option.bind_some, read']
  rfl

/-- Behind a text on a line of its own the lexer goes on with the next line. -/
theorem tokens?_indentation {key : Option PossibleKey} {index line fuel : Nat}
    (starts : StartsToken rest) (forgotten : IsForgotten line key) :
    State.tokens? (fuel + 2)
        (stateWith ⟨rest, count, blocks, allowed⟩ key (index + count) line) =
      State.tokens? (fuel + 2) (state ⟨blanks count ++ rest, 0, blocks, allowed⟩ index line) := by
  refine tokens?_congr ?_
  rw [approach?_indentation starts]
  exact approach?_blanks 0 starts forgotten

/-- A plain text at the end of a line is read, and leads to the next line. -/
theorem leads_plain {text more : List Char} {indent : Nat} (plain : Lexeme.IsPlain text)
    (nonempty : text ≠ []) (resumes : Resumes indent more) (held : blocks.indent = indent)
    (inside : indent < column) :
    Leads ⟨text ++ '\n' :: more, column, blocks, allowed⟩
      ⟨more, 0, blocks.emit (.scalar text true), true⟩ := by
  intro index line fuel enough
  obtain ⟨count, behind, less, starts, rfl⟩ := resumes
  obtain ⟨c, others, rfl⟩ := List.exists_cons_of_ne_nil nonempty
  simp only [List.length_append, List.length_cons] at enough
  obtain ⟨fuel, rfl⟩ : ∃ less, fuel = less + 1 + 2 := ⟨fuel - 3, by omega⟩
  have outside : (count : Int) < blocks.indent + 1 := by omega
  have read := Lexeme.plain?_line plain nonempty outside starts.1 (fuel + 2) index line column
    (by omega) (by simp only [List.length_append, List.length_cons]; omega)
  have token := (token?_plain plain ('\n' :: (blanks count ++ behind)) (by rintro c ⟨⟩; decide)
    blocks column allowed index line (fuel + 2)).trans (plain?_state _ read)
  refine ⟨index + (c :: others).length + 1, line + 1, fuel + 2, ?_, ?_⟩
  · simp only [List.length_append]
    omega
  · rw [List.cons_append, tokens?_token (startsToken_of_isPlain plain _) (by omega) token]
    exact tokens?_indentation starts
      (isForgotten_savedKey (by simp only [held]; omega) (Nat.lt_succ_self line) index)

theorem lexeme?_state (spot : Spot) {index line : Nat} {read : Cursor → Option (List Char × Cursor)}
    (token : List Char → Token) {content : List Char} {place : Cursor}
    (reads : read ⟨spot.rest, index, line, spot.column⟩ = some (content, place)) :
    (spot.state index line).lexeme? read token =
      some (stateWith ⟨place.rest, place.column, spot.blocks.emit (token content), false⟩
        (spot.savedKey index line) place.index place.line) := by
  have read' : read (spot.stateWith (spot.savedKey index line) index line).place =
      some (content, place) := reads
  rw [State.lexeme?, saveKey?_state]
  simp only [Option.bind_eq_bind, Option.bind_some, read']
  rfl

theorem token?_quote (double : Bool) (tail : List Char) (blocks : Blocks) (column : Nat)
    (allowed : Bool) (index line fuel : Nat) :
    (state ⟨Lexeme.quotationMark double :: tail, column, blocks, allowed⟩ index line).token? fuel
        (Lexeme.quotationMark double) tail =
      (state ⟨Lexeme.quotationMark double :: tail, column, blocks, allowed⟩ index line).lexeme?
        (Lexeme.quoted? double fuel) (.scalar · false) := by
  cases double <;>
    simp [State.token?, state, stateWith, Lexeme.quotationMark, Cursor.atDocumentMark]

theorem startsToken_quotationMark (double : Bool) (tail : List Char) :
    StartsToken (Lexeme.quotationMark double :: tail) := by
  cases double <;> exact startsToken_cons (by decide) (by decide) tail

theorem leads_quoted {text : String} {more : List Char} {indent : Nat} {double : Bool}
    (style : styleOf text = if double then .doubleQuoted else .singleQuoted)
    (resumes : Resumes indent more) (held : blocks.indent = indent) (inside : indent < column) :
    Leads ⟨writeText (indent + 2) text ++ '\n' :: more, column, blocks, allowed⟩
      ⟨more, 0, blocks.emit (.scalar text.toList false), true⟩ := by
  intro index line fuel enough
  simp only at enough
  obtain ⟨fuel, rfl⟩ : ∃ less, fuel = less + 2 := ⟨fuel - 2, by omega⟩
  obtain ⟨tail, ⟨rest, newIndex, newLine, newColumn⟩, written, behind, read⟩ :=
    Lexeme.quoted?_writeText (show 0 < indent + 2 by omega) style ('\n' :: more) (by simp)
      (fuel + 1) index line column (by omega)
  obtain rfl : rest = '\n' :: more := behind.rest_eq
  have later : line < newLine + 1 := Nat.lt_succ_of_le behind.line_le
  have token := (token?_quote double tail blocks column allowed index line (fuel + 1)).trans
    (lexeme?_state _ (.scalar · false) read)
  have present : 0 < (writeText (indent + 2) text).length := by
    cases double <;> simp [writeText, style]
  have short : ('\n' :: more).length + 2 ≤ fuel + 1 := by
    simp only [List.length_append] at enough
    omega
  rw [written]
  refine ⟨newIndex + 1, newLine + 1, fuel + 1, ?_, ?_⟩
  · simp only [List.length_cons] at short
    simp only
    omega
  · rw [tokens?_token (startsToken_quotationMark double tail) (by omega) token]
    exact tokens?_line resumes
      (isForgotten_savedKey (by simp only [held]; omega) later index) short

theorem token?_lines (tail : List Char) (index line fuel : Nat) :
    (state ⟨'|' :: tail, column, blocks, allowed⟩ index line).token? fuel '|' tail =
      (state ⟨'|' :: tail, column, blocks, allowed⟩ index line).block? fuel true := by
  simp [State.token?, state, stateWith, State.inFlow, Cursor.atDocumentMark]

theorem leads_lines {text : String} {more : List Char} {indent : Nat}
    (style : styleOf text = .lines) (resumes : Resumes indent more)
    (held : blocks.indent = indent) (inside : indent < column) :
    Leads ⟨writeText (indent + 2) text ++ (Lexeme.lineEnd text.toList ++ more), column, blocks,
        allowed⟩
      ⟨more, 0, blocks.emit (.scalar text.toList false), true⟩ := by
  intro index line fuel enough
  obtain ⟨count, behind, less, starts, rfl⟩ := resumes
  simp only at enough
  obtain ⟨fuel, rfl⟩ : ∃ less, fuel = less + 2 := ⟨fuel - 2, by omega⟩
  have short : (writeText (indent + 2) text ++
      Lexeme.behindLines text.toList count behind).length < fuel + 1 :=
    Nat.le_of_succ_le_succ enough
  obtain ⟨newIndex, newLine, later, read⟩ := Lexeme.block?_writeText style
    (Nat.lt_of_le_of_lt less (Nat.lt_add_of_pos_right Nat.two_pos)) starts.1 index line column short
  rw [Lexeme.behindLines] at read
  obtain ⟨tail, written⟩ : ∃ tail, writeText (indent + 2) text = '|' :: tail := by
    simp only [writeText, style]
    exact ⟨_, rfl⟩
  rw [written, List.cons_append] at read enough ⊢
  rw [← held] at read
  simp only [List.length_cons, List.length_append] at enough
  have token : (state ⟨'|' :: (tail ++ (Lexeme.lineEnd text.toList ++ (blanks count ++ behind))),
      column, blocks, allowed⟩ index line).token? (fuel + 1) '|'
        (tail ++ (Lexeme.lineEnd text.toList ++ (blanks count ++ behind))) =
      some (state ⟨behind, count, blocks.emit (.scalar text.toList false), true⟩ (newIndex + count)
        newLine) := by
    rw [token?_lines, State.block?]
    simp only [state, stateWith, State.dropKey?, Option.any_none, Bool.false_eq_true, if_false,
      Option.bind_eq_bind, Option.bind_some, read]
    rfl
  obtain ⟨fuel, rfl⟩ := Nat.exists_eq_add_of_le' (show 1 ≤ fuel by omega)
  refine ⟨newIndex, newLine, fuel + 2, ?_, ?_⟩
  · simp only [List.length_append]
    omega
  · -- The block has taken the indentation of the next line, which the next step would skip.
    rw [tokens?_token (startsToken_cons (by decide) (by decide) _) (by omega) token]
    exact tokens?_indentation starts (by simp [IsForgotten])

/-- A text that is written as a value, or as a marked key, is read and leads to the next line. -/
theorem leads_text {text : String} {more : List Char} {indent : Nat} (resumes : Resumes indent more)
    (held : blocks.indent = indent) (inside : indent < column) :
    Leads ⟨endLine (writeText (indent + 2) text) ++ more, column, blocks, allowed⟩
      ⟨more, 0, blocks.emit (Block.textToken text), true⟩ := by
  have token (plain : Bool) (same : isPlain text = plain) :
      Block.textToken text = .scalar text.toList plain := by
    rw [Block.textToken, same]
  cases style : styleOf text with
  | plain =>
      obtain ⟨plain, nonempty, -⟩ := Lexeme.isPlain_of_styleOf style
      have written : endLine (writeText (indent + 2) text) = text.toList ++ ['\n'] := by
        have last := plain.characters _ (List.getLast_mem nonempty)
        simp only [writeText, style, endLine, List.getLast?_eq_some_getLast nonempty]
        simp [last]
      rw [written, List.append_assoc, token true (by simp [isPlain, style])]
      exact leads_plain plain nonempty resumes held inside
  | singleQuoted =>
      have quoted : styleOf text = if false then .doubleQuoted else .singleQuoted := style
      rw [Lexeme.endLine_quoted quoted, List.append_assoc, token false (by simp [isPlain, style])]
      exact leads_quoted quoted resumes held inside
  | doubleQuoted =>
      have quoted : styleOf text = if true then .doubleQuoted else .singleQuoted := style
      rw [Lexeme.endLine_quoted quoted, List.append_assoc, token false (by simp [isPlain, style])]
      exact leads_quoted quoted resumes held inside
  | lines =>
      rw [Lexeme.endLine_lines style, List.append_assoc, token false (by simp [isPlain, style])]
      exact leads_lines style resumes held inside

theorem exists_writeText_eq_cons (text : String) (indent : Nat) :
    ∃ c tail, writeText indent text = c :: tail ∧ ∀ rest, StartsToken (c :: rest) := by
  cases style : styleOf text with
  | plain =>
      obtain ⟨plain, nonempty, -⟩ := Lexeme.isPlain_of_styleOf style
      obtain ⟨c, others, same⟩ := List.exists_cons_of_ne_nil nonempty
      rw [same] at plain
      refine ⟨c, others, by simp only [writeText, style, same], fun rest => ?_⟩
      obtain ⟨word, notComment⟩ := startsToken_of_isPlain plain []
      exact startsToken_cons (word c rfl) (by simpa using notComment) rest
  | singleQuoted =>
      exact ⟨_, _, by simp only [writeText, style]; rfl, startsToken_quotationMark false⟩
  | doubleQuoted =>
      exact ⟨_, _, by simp only [writeText, style]; rfl, startsToken_quotationMark true⟩
  | lines =>
      exact ⟨_, _, by simp only [writeText, style]; rfl, startsToken_cons (by decide) (by decide)⟩

/-! ## Empty collections -/

/-- The brackets of a flow collection, with their tokens. -/
inductive IsFlow : Char → Char → Token → Token → Prop
  | list : IsFlow '[' ']' .flowSequenceStart .flowSequenceEnd
  | mapping : IsFlow '\x7b' '\x7d' .flowMappingStart .flowMappingEnd

/-- The state between the brackets of an empty collection. -/
def insideFlow (spot : Spot) (key : Option PossibleKey) (index line : Nat) : State :=
  { spot.state index line with outerKeys := [key] }

section

variable {first last : Char} {start stop : Token} (isFlow : IsFlow first last start stop)
include isFlow

theorem token?_opening (rest : List Char) (blocks : Blocks) (column : Nat) (allowed : Bool)
    (index line fuel : Nat) :
    (state ⟨first :: last :: rest, column, blocks, allowed⟩ index line).token? fuel first
        (last :: rest) =
      some (insideFlow ⟨last :: rest, column + 1, blocks.emit start, true⟩
        (savedKey ⟨first :: last :: rest, column, blocks, allowed⟩ index line) (index + 1)
        line) := by
  have read : (state ⟨first :: last :: rest, column, blocks, allowed⟩ index line).token? fuel first
      (last :: rest) =
      (state ⟨first :: last :: rest, column, blocks, allowed⟩ index line).openFlow? start := by
    cases isFlow <;> simp [State.token?, state, stateWith, Cursor.atDocumentMark]
  rw [read, State.openFlow?, saveKey?_state]
  rfl

theorem token?_closing (key : Option PossibleKey) (index line fuel : Nat) :
    (insideFlow ⟨last :: rest, column, blocks, allowed⟩ key index line).token? fuel last rest =
      some (stateWith ⟨rest, column + 1, blocks.emit stop, false⟩ key (index + 1) line) := by
  have read : (insideFlow ⟨last :: rest, column, blocks, allowed⟩ key index line).token? fuel last
      rest =
        (insideFlow ⟨last :: rest, column, blocks, allowed⟩ key index line).closeFlow? stop := by
    cases isFlow <;> simp [State.token?, insideFlow, state, stateWith, Cursor.atDocumentMark]
  rw [read]
  rfl

theorem approach?_closing (content : List Char) (index line fuel : Nat) :
    (insideFlow ⟨last :: rest, column + 1, blocks.emit start, true⟩
        (savedKey ⟨content, column, blocks, allowed⟩ index line) (index + 1) line).approach?
          (fuel + 1) =
      some (insideFlow ⟨last :: rest, column + 1, blocks.emit start, true⟩
        (savedKey ⟨content, column, blocks, allowed⟩ index line) (index + 1) line) := by
  let first := insideFlow ⟨last :: rest, column + 1, blocks.emit start, true⟩
    (savedKey ⟨content, column, blocks, allowed⟩ index line) (index + 1) line
  have skipped : State.skipToToken (fuel + 1) first = first := by
    cases isFlow <;>
      simp [first, State.skipToToken, insideFlow, state, stateWith, State.inFlow, Cursor.dropWhile,
        Cursor.takeWhile, Cursor.skip, Cursor.head?, State.moveTo, isBreak]
  have fresh : first.dropStaleKeys? = some first := by
    have near : ¬ index + State.longestKey < index + 1 := by simp [State.longestKey]
    cases allowed <;>
      simp [first, State.dropStaleKeys?, insideFlow, state, stateWith, savedKey, State.freshKey?,
        State.isStale, near]
  rw [State.approach?, skipped, fresh]
  rfl

end

theorem leads_emptyFlow {first last : Char} {start stop : Token}
    (isFlow : IsFlow first last start stop) {more : List Char} {indent : Nat}
    (resumes : Resumes indent more) (held : blocks.indent = indent) (inside : indent < column) :
    Leads ⟨first :: last :: '\n' :: more, column, blocks, allowed⟩
      ⟨more, 0, (blocks.emit start).emit stop, true⟩ := by
  intro index line fuel enough
  simp only [List.length_cons] at enough
  obtain ⟨fuel, rfl⟩ : ∃ less, fuel = less + 1 + 1 + 2 := ⟨fuel - 4, by omega⟩
  have starts : StartsToken (first :: last :: '\n' :: more) := by
    cases isFlow <;> exact startsToken_cons (by decide) (by decide) _
  have opened := token?_opening isFlow ('\n' :: more) blocks column allowed index line
    (fuel + 1 + 1 + 1)
  have forgotten : IsForgotten (line + 1)
      (savedKey ⟨first :: last :: '\n' :: more, column, blocks, allowed⟩ index line) :=
    isForgotten_savedKey (by simp only [held]; omega) (Nat.lt_succ_self line) index
  refine ⟨index + 3, line + 1, fuel + 1 + 1, by simp only; omega, ?_⟩
  rw [tokens?_token starts (by omega) opened, State.tokens?, approach?_closing isFlow]
  simp only [Option.bind_eq_bind, Option.bind_some]
  rw [show (insideFlow ⟨last :: '\n' :: more, column + 1, blocks.emit start, true⟩
    (savedKey ⟨first :: last :: '\n' :: more, column, blocks, allowed⟩ index line) (index + 1)
      line).place.rest = last :: '\n' :: more from rfl]
  simp only [token?_closing isFlow, Option.bind_some]
  exact tokens?_line resumes forgotten (by simp only [List.length_cons]; omega)

/-! ## Keys -/

/-- The colon behind a possible key marks the key, and opens a mapping in front of it. -/
theorem value?_savedKey {token : Token} {content : List Char} {index line behind later : Nat}
    (length : Nat) :
    (stateWith ⟨':' :: rest, column + length, blocks.emit token, false⟩
        (savedKey ⟨content, column, blocks, true⟩ index line) behind later).value? =
      some (state ⟨rest, column + length + 1,
        (((blocks.opened column .blockMappingStart).emit .key).emit token).emit .value, false⟩
        (behind + 1) later) := by
  have first : blocks.tokens.length + 1 + 1 - blocks.tokens.length = 2 := by omega
  by_cases inside : (column : Int) ≤ blocks.indent <;>
    simp [savedKey, State.value?, stateWith, state, State.insert, State.openBlock, State.inFlow,
      inside, Blocks.opened, Blocks.emit, State.emit, State.skip, State.moveTo, State.allowKey,
      Cursor.skip, first]

/-- A possible key that is not too far back is kept up to the colon behind it. -/
theorem tokens?_colon {content : List Char} {token : Token} {index line length fuel : Nat}
    (ends : endsWord rest = true) (inside : blocks.indent ≤ column) (present : 0 < length)
    (near : length ≤ State.longestKey) :
    State.tokens? (fuel + 2)
        (stateWith ⟨':' :: rest, column + length, blocks.emit token, false⟩
          (savedKey ⟨content, column, blocks, true⟩ index line) (index + length) line) =
      State.tokens? (fuel + 1) (state ⟨rest, column + length + 1,
        (((blocks.opened column .blockMappingStart).emit .key).emit token).emit .value, false⟩
        (index + length + 1) line) := by
  have starts : StartsToken (':' :: rest) := startsToken_cons (by decide) (by decide) rest
  let first := stateWith ⟨':' :: rest, column + length, blocks.emit token, false⟩
    (savedKey ⟨content, column, blocks, true⟩ index line) (index + length) line
  have fresh : first.dropStaleKeys? = some first := by
    -- The key was saved on this line, and at most the longest key ago.
    have notFar : ¬ index + State.longestKey < index + length := by omega
    simp [first, State.dropStaleKeys?, stateWith, savedKey, State.freshKey?, State.isStale, notFar]
  have skipped : State.skipToToken (fuel + 1) first = first := skipToToken_blanks 0 starts
  have held : first.unroll first.place.column = first := by
    have within : (blocks.emit token).indent ≤ (column + length : Nat) :=
      Int.le_trans inside (by omega)
    exact unroll_inside within _ _ line
  have approach : first.approach? (fuel + 1) = some first := by
    rw [State.approach?, skipped, fresh]
    exact congrArg some held
  have read : first.token? (fuel + 1) ':' rest = first.value? := by
    have noMark : first.place.atDocumentMark = false :=
      Cursor.atDocumentMark_of_pos (show 0 < column + length by omega)
    simp [State.token?, noMark, ends]
  rw [State.tokens?, approach]
  have value : first.value? = _ := value?_savedKey length
  have place : first.place.rest = ':' :: rest := rfl
  simp only [Option.bind_eq_bind, Option.bind_some, place, read, value]

/-- Whether the lexer reads a key from what is written for it, up to a colon on the same line. -/
def ReadsKey (token : Token) (written rest : List Char) : Prop :=
  ∀ (blocks : Blocks) (column : Nat) (allowed : Bool) (index line fuel : Nat),
    blocks.indent ≤ column → (written ++ ':' :: rest).length < fuel →
    ∃ c tail, written ++ ':' :: rest = c :: tail ∧ StartsToken (c :: tail) ∧
      (state ⟨c :: tail, column, blocks, allowed⟩ index line).token? fuel c tail =
        some (stateWith ⟨':' :: rest, column + written.length, blocks.emit token, false⟩
          (savedKey ⟨c :: tail, column, blocks, allowed⟩ index line) (index + written.length) line)

theorem readsKey_plain {text : List Char} (plain : Lexeme.IsPlain text) (nonempty : text ≠ [])
    (ends : endsWord rest = true) : ReadsKey (.scalar text true) text rest := by
  intro blocks column allowed index line fuel inside enough
  obtain ⟨c, others, rfl⟩ := List.exists_cons_of_ne_nil nonempty
  have within : blocks.indent + 1 ≤ column + 1 := by omega
  have read := Lexeme.plain?_colon plain nonempty ends fuel index line column within enough
  refine ⟨c, others ++ ':' :: rest, rfl, startsToken_of_isPlain plain _, ?_⟩
  rw [token?_plain plain (':' :: rest) (by rintro c ⟨⟩; decide) blocks column allowed index line
    fuel]
  exact plain?_state ⟨c :: (others ++ ':' :: rest), column, blocks, allowed⟩ read

theorem readsKey_quoted {key : String} {double : Bool} (noBreaks : key.toList.any isBreak = false)
    (style : styleOf key = if double then .doubleQuoted else .singleQuoted) (indent : Nat)
    (rest : List Char) :
    ReadsKey (.scalar key.toList false) (writeText (indent + 2) key) rest := by
  intro blocks column allowed index line fuel inside enough
  obtain ⟨tail, place, written, behind, read⟩ := Lexeme.quoted?_writeText
    (show 0 < indent + 2 by omega) style (':' :: rest) (by simp) fuel index line column enough
  obtain rfl := behind.sameLine noBreaks
  refine ⟨_, tail, written, startsToken_quotationMark double tail, ?_⟩
  rw [token?_quote double tail blocks column allowed index line fuel]
  exact lexeme?_state ⟨Lexeme.quotationMark double :: tail, column, blocks, allowed⟩
    (.scalar · false) read

theorem readsKey {key : String} (noBreaks : key.toList.any isBreak = false)
    (ends : endsWord rest = true) (indent : Nat) :
    ReadsKey (Block.textToken key) (writeText (indent + 2) key) rest := by
  have token (plain : Bool) (same : isPlain key = plain) :
      Block.textToken key = .scalar key.toList plain := by
    rw [Block.textToken, same]
  cases style : styleOf key with
  | plain =>
      obtain ⟨plain, nonempty, -⟩ := Lexeme.isPlain_of_styleOf style
      have written : writeText (indent + 2) key = key.toList := by simp only [writeText, style]
      rw [written, token true (by simp [isPlain, style])]
      exact readsKey_plain plain nonempty ends
  | singleQuoted =>
      have quoted : styleOf key = if false then .doubleQuoted else .singleQuoted := style
      rw [token false (by simp [isPlain, style])]
      exact readsKey_quoted noBreaks quoted indent rest
  | doubleQuoted =>
      have quoted : styleOf key = if true then .doubleQuoted else .singleQuoted := style
      rw [token false (by simp [isPlain, style])]
      exact readsKey_quoted noBreaks quoted indent rest
  | lines =>
      rw [List.any_eq_false] at noBreaks
      exact absurd isLineBreak_feed.1 (noBreaks '\n' (Lexeme.allowsLines_of_styleOf style).2)

/-- A key without a mark opens a mapping, and leads behind its colon. -/
theorem leads_simpleKey {key : String} (simple : isSimpleKey key = true)
    (ends : endsWord rest = true) (inside : blocks.indent ≤ column) (indent : Nat) :
    Leads ⟨writeText (indent + 2) key ++ ':' :: rest, column, blocks, true⟩
      ⟨rest, column + (writeText (indent + 2) key).length + 1,
        (((blocks.opened column .blockMappingStart).emit .key).emit
          (Block.textToken key)).emit .value,
        false⟩ := by
  simp only [isSimpleKey, Bool.and_eq_true, Bool.not_eq_true', decide_eq_true_eq] at simple
  obtain ⟨noBreaks, short⟩ := simple
  intro index line fuel enough
  simp only [List.length_append, List.length_cons] at enough
  obtain ⟨fuel, rfl⟩ : ∃ less, fuel = less + 1 + 2 := ⟨fuel - 3, by omega⟩
  obtain ⟨c, tail, written, starts, read⟩ :=
    readsKey noBreaks ends indent blocks column true index line (fuel + 2) inside
      (by simp only [List.length_append, List.length_cons]; omega)
  have bound := Lexeme.length_writeText_le noBreaks (indent + 2)
  have present : 0 < (writeText (indent + 2) key).length := by
    obtain ⟨c, tail, written, -⟩ := exists_writeText_eq_cons key (indent + 2)
    simp [written]
  have near : (writeText (indent + 2) key).length ≤ State.longestKey := by
    simp only [longestKey, State.longestKey] at short ⊢
    omega
  rw [written]
  refine ⟨_, _, _, ?_, (tokens?_token starts inside read).trans
    (tokens?_colon ends inside present near)⟩
  simp only
  omega

end Spot

end DeployTarget.Yaml.Lexer
