import DeployTarget.Yaml.Lexeme

/-!
# The tokens of a document

A text is cut into tokens from left to right.  Indentation opens and closes block
collections.  A key is known only by the colon behind it, so a place where a key may
have begun is remembered, and the token that marks the key is put there afterwards.
-/

namespace DeployTarget.Yaml

/-- A token of a document. -/
inductive Token where
  | directive (directive : Lexeme.Directive)
  | documentStart
  | documentEnd
  | blockSequenceStart
  | blockMappingStart
  | blockEnd
  | flowSequenceStart
  | flowSequenceEnd
  | flowMappingStart
  | flowMappingEnd
  | blockEntry
  | flowEntry
  | key
  | value
  | alias (name : List Char)
  | anchor (name : List Char)
  | tag (tag : Lexeme.Tag)
  | scalar (text : List Char) (plain : Bool)
  | streamEnd
deriving DecidableEq, Repr

namespace Lexer

/-- A place where a key may have begun. -/
structure PossibleKey where
  /-- Whether nothing but a key can stand there. -/
  required : Bool
  position : Nat
  place : Cursor

/-- The state between two tokens. -/
structure State where
  place : Cursor
  /-- The tokens so far, last one first. -/
  tokens : List Token
  count : Nat
  /-- The column of the innermost block collection, `-1` outside of all. -/
  indent : Int
  outerIndents : List Int
  key : Option PossibleKey
  /-- The possible keys of the flow collections around it, and of the block outside. -/
  outerKeys : List (Option PossibleKey)
  keyAllowed : Bool

namespace State

/-- The state in front of the first token. -/
def start (text : List Char) : State :=
  ⟨.start text, [], 0, -1, [], none, [], true⟩

def inFlow (state : State) : Bool :=
  !state.outerKeys.isEmpty

def emit (state : State) (token : Token) : State :=
  { state with tokens := token :: state.tokens, count := state.count + 1 }

/-- The state with a token put behind a number of tokens. -/
def insert (state : State) (position : Nat) (token : Token) : State :=
  { state with
    tokens := state.tokens.insertIdx (state.count - position) token
    count := state.count + 1 }

def moveTo (state : State) (place : Cursor) : State :=
  { state with place := place }

def skip (state : State) (count : Nat) : State :=
  state.moveTo (state.place.skip count)

/-- The state in which a key may, or may not, begin. -/
def allowKey (state : State) (allowed : Bool) : State :=
  { state with keyAllowed := allowed }

/-- Forgets a possible key; one that is required may not be forgotten. -/
def dropKey? (state : State) : Option State :=
  if state.key.any (·.required) then none else some { state with key := none }

def saveKey? (state : State) : Option State :=
  if state.keyAllowed then do
    let state ← state.dropKey?
    let required := !state.inFlow && state.indent == state.place.column
    return { state with key := some ⟨required, state.count, state.place⟩ }
  else some state

/-- The most characters of a key that is known only by the colon behind it. -/
def longestKey : Nat :=
  1024

/-- Whether a place is too far back for a key: on another line, or too many
characters before. -/
def isStale (state : State) (key : PossibleKey) : Bool :=
  key.place.line < state.place.line || key.place.index + longestKey < state.place.index

/-- Forgets the possible key of one collection if it is too far back. -/
def freshKey? (state : State) : Option PossibleKey → Option (Option PossibleKey)
  | some key =>
      if state.isStale key then (if key.required then none else some none)
      else some (some key)
  | none => some none

def dropStaleKeys? (state : State) : Option State := do
  let key ← state.freshKey? state.key
  let outerKeys ← state.outerKeys.mapM state.freshKey?
  return { state with key := key, outerKeys := outerKeys }

/-- Closes the block collections that are indented further than a column. -/
def closeBlocks (column : Int) : Nat → State → State
  | 0, state => state
  | fuel + 1, state =>
      if state.inFlow || state.indent ≤ column then state
      else
        closeBlocks column fuel
          { state.emit .blockEnd with
            indent := state.outerIndents.headD (-1)
            outerIndents := state.outerIndents.tail }

/-- Closes the block collections that end at a column. -/
def unroll (state : State) (column : Int) : State :=
  closeBlocks column (state.outerIndents.length + 1) state

/-- Opens a block collection at a column, behind a number of tokens, unless one is
open there. -/
def openBlock (state : State) (column position : Nat) (token : Token) : State :=
  if state.inFlow || column ≤ state.indent then state
  else
    { state.insert position token with
      indent := column
      outerIndents := state.indent :: state.outerIndents }

def openBlockHere (state : State) (token : Token) : State :=
  state.openBlock state.place.column state.count token

/-- Moves to the next token over blanks, comments and line breaks.  A tab is no blank
where a block may begin.  `fuel` bounds the lines. -/
def skipToToken : Nat → State → State
  | 0, state => state
  | fuel + 1, state =>
      let tabs := state.inFlow || !state.keyAllowed
      let place := state.place.dropWhile fun c => c == ' ' || (tabs && c == '\t')
      let place := if place.head? = some '#' then place.dropWhile (!isBreak ·) else place
      match place.rest with
      | c :: _ =>
          if isBreak c then
            let state := state.moveTo place.nextLine
            skipToToken fuel (if state.inFlow then state else state.allowKey true)
          else state.moveTo place
      | [] => state.moveTo place

/-! ## One token -/

def endStream? (state : State) : Option State := do
  let state ← (state.unroll (-1)).dropKey?
  return state.emit .streamEnd

def documentMark? (state : State) (token : Token) : Option State := do
  let state ← (state.unroll (-1)).dropKey?
  return ((state.allowKey false).skip 3).emit token

def directive? (state : State) : Option State := do
  let state ← (state.unroll (-1)).dropKey?
  let (directive, place) ← Lexeme.directive? state.place
  return ((state.allowKey false).moveTo place).emit (.directive directive)

def openFlow? (state : State) (token : Token) : Option State := do
  let state ← state.saveKey?
  return { ((state.allowKey true).skip 1).emit token with
    key := none
    outerKeys := state.key :: state.outerKeys }

def closeFlow? (state : State) (token : Token) : Option State := do
  let state ← state.dropKey?
  let state := ((state.allowKey false).skip 1).emit token
  match state.outerKeys with
  | key :: outerKeys => return { state with key := key, outerKeys := outerKeys }
  | [] => return state

def flowEntry? (state : State) : Option State := do
  let state ← state.dropKey?
  return ((state.allowKey true).skip 1).emit .flowEntry

def blockEntry? (state : State) : Option State := do
  if !state.inFlow && !state.keyAllowed then none
  else
    let state ← (state.openBlockHere .blockSequenceStart).dropKey?
    return ((state.allowKey true).skip 1).emit .blockEntry

def explicitKey? (state : State) : Option State := do
  if !state.inFlow && !state.keyAllowed then none
  else
    let state ← (state.openBlockHere .blockMappingStart).dropKey?
    return ((state.allowKey (!state.inFlow)).skip 1).emit .key

/-- Reads the colon of a value, which makes the possible key in front of it one. -/
def value? (state : State) : Option State :=
  match state.key with
  | some key =>
      let state := { state.insert key.position .key with key := none }
      let state := state.openBlock key.place.column key.position .blockMappingStart
      some (((state.allowKey false).skip 1).emit .value)
  | none =>
      if !state.inFlow && !state.keyAllowed then none
      else
        let state := state.openBlockHere .blockMappingStart
        some (((state.allowKey (!state.inFlow)).skip 1).emit .value)

/-- Reads a lexeme in front of which a key may begin. -/
def lexeme? {α : Type} (state : State) (read : Cursor → Option (α × Cursor))
    (token : α → Token) : Option State := do
  let state ← state.saveKey?
  let (content, place) ← read state.place
  return ((state.allowKey false).moveTo place).emit (token content)

def block? (state : State) (fuel : Nat) (literal : Bool) : Option State := do
  let state ← state.dropKey?
  let (text, place) ← Lexeme.block? literal state.indent fuel state.place
  return ((state.allowKey true).moveTo place).emit (.scalar text false)

/-- Reads a plain text; behind a line break a key may begin again. -/
def plain? (state : State) (fuel : Nat) : Option State := do
  let state ← state.saveKey?
  let read ← Lexeme.plain? state.inFlow (state.indent + 1) fuel state.place
  return ((state.allowKey read.broken).moveTo read.place).emit (.scalar read.text true)

def isIndicator (c : Char) : Bool :=
  ['-', '?', ':', ',', '[', ']', '{', '}', '#', '&', '*', '!', '|', '>', '\'', '"', '%',
    '@'].contains c || c.toNat == 0x60

def startsPlain (inFlow : Bool) (c : Char) (rest : List Char) : Bool :=
  !isIndicator c && !isWhite c && !isBreak c ||
    c == '-' && !rest.head?.any isWhite ||
    !inFlow && (c == '?' || c == ':') && !endsWord rest

/-- Reads the token that begins with a character; `fuel` is more than the characters
that remain. -/
def token? (state : State) (fuel : Nat) (c : Char) (rest : List Char) : Option State :=
  let inFlow := state.inFlow
  let place := state.place
  if place.column = 0 ∧ c = '%' then state.directive?
  else if place.atDocumentMark then
    state.documentMark? (if c = '-' then .documentStart else .documentEnd)
  else if c = '[' then state.openFlow? .flowSequenceStart
  else if c = '\x7b' then state.openFlow? .flowMappingStart
  else if c = ']' then state.closeFlow? .flowSequenceEnd
  else if c = '\x7d' then state.closeFlow? .flowMappingEnd
  else if c = ',' then state.flowEntry?
  else if c = '-' ∧ endsWord rest then state.blockEntry?
  else if c = '?' ∧ (inFlow || endsWord rest) then state.explicitKey?
  else if c = ':' ∧ (inFlow || endsWord rest) then state.value?
  else if c = '*' then state.lexeme? Lexeme.anchor? .alias
  else if c = '&' then state.lexeme? Lexeme.anchor? .anchor
  else if c = '!' then state.lexeme? (Lexeme.tag? inFlow) .tag
  else if c = '|' ∧ !inFlow then state.block? fuel true
  else if c = '>' ∧ !inFlow then state.block? fuel false
  else if c = '\'' then state.lexeme? (Lexeme.quoted? false fuel) (.scalar · false)
  else if c = '"' then state.lexeme? (Lexeme.quoted? true fuel) (.scalar · false)
  else if startsPlain inFlow c rest then state.plain? fuel
  else none

/-- Moves to the next token and closes the collections that end in front of it; `fuel`
is more than the characters that remain. -/
def approach? (state : State) (fuel : Nat) : Option State := do
  let state ← (skipToToken fuel state).dropStaleKeys?
  return state.unroll state.place.column

/-- Reads the tokens up to the end of the text; `fuel` is greater by two than the number
of characters that remain. -/
def tokens? : Nat → State → Option (List Token)
  | 0, _ => none
  | fuel + 1, state => do
      let state ← state.approach? fuel
      match state.place.rest with
      | c :: rest =>
          let state ← state.token? fuel c rest
          tokens? fuel state
      | [] =>
          let state ← state.endStream?
          return state.tokens.reverse

end State

end Lexer

def isAllowed (c : Char) : Bool :=
  let code := c.toNat
  code == 0x09 || code == 0x0A || code == 0x0D || (0x20 ≤ code && code ≤ 0x7E) ||
    code == 0x85 || (0xA0 ≤ code && code ≤ 0xFFFD) || 0x10000 ≤ code

/-- The mark of the byte order, which may stand in front of a document. -/
def byteOrderMark : Char :=
  '\ufeff'

/-- The state in front of the first token of a text. -/
def Lexer.State.ofText (text : List Char) : Lexer.State :=
  let state := start text
  if text.head? = some byteOrderMark then state.skip 1 else state

def Token.ofText? (text : String) : Option (List Token) :=
  let characters := text.toList
  if characters.all isAllowed then
    Lexer.State.tokens? (characters.length + 2) (Lexer.State.ofText characters)
  else none

end DeployTarget.Yaml
