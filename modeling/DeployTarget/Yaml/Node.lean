import DeployTarget.Yaml.Token

/-!
# The tree of a document

The tokens of a text make up one document: a scalar, a sequence or a mapping.  A node
can be named by an anchor and used again under that name; the tree then holds it twice.
To keep such trees small, the names that are followed while a tree is read may not be
much more than the parts of the document, and collections may not be nested too deep.
-/

namespace DeployTarget.Yaml

/-- A node of a document. -/
inductive Node where
  /-- A text, and whether it was written plain. -/
  | scalar (text : String) (plain : Bool) (tag : Option String)
  | sequence (items : List Node) (tag : Option String)
  | mapping (entries : List (Node × Node)) (tag : Option String)
deriving Inhabited, Repr

/-- A node with what it costs to read it. -/
structure Composed where
  node : Node
  /-- The number of parts of the document that make it up. -/
  parts : Nat
  /-- The number of names that are followed when it is read. -/
  jumps : Nat
  /-- How deep collections are nested in it. -/
  depth : Nat

namespace Composer

/-- The state between two nodes. -/
structure State where
  tokens : List Token
  /-- The named nodes, in the order in which they begin; a node that has not ended has
  no tree yet. -/
  anchors : List (List Char × Option Composed)

abbrev Step (α : Type) :=
  StateT State Option α

def peek : Step (Option Token) := do
  return (← get).tokens.head?

def advance : Step Unit :=
  modify fun state => { state with tokens := state.tokens.tail }

/-- Moves over the given token if it is the next one, and says whether it was. -/
def accept (token : Token) : Step Bool := do
  if (← peek) = some token then
    advance
    return true
  else return false

def isNext (tokens : List Token) : Step Bool := do
  match ← peek with
  | some token => return token ∈ tokens
  | none => return false

def anchor? : Step (Option (List Char)) := do
  match ← peek with
  | some (.anchor name) =>
      advance
      return some name
  | _ => return none

def tag? : Step (Option Lexeme.Tag) := do
  match ← peek with
  | some (.tag tag) =>
      advance
      return some tag
  | _ => return none

def properties : Step (Option (List Char) × Option Lexeme.Tag) := do
  match ← anchor? with
  | some name => return (some name, ← tag?)
  | none =>
      let tag ← tag?
      if tag.isSome then return (← anchor?, tag)
      else return (none, none)

/-- The handles that every document knows, with the beginnings they stand for. -/
def standardHandles : List (List Char × List Char) :=
  [(['!'], ['!']), (['!', '!'], "tag:yaml.org,2002:".toList)]

def tagText? (handles : List (List Char × List Char)) (tag : Lexeme.Tag) : Option String :=
  if tag.handle = [] then some (String.ofList tag.suffix)
  else
    (handles.lookup tag.handle).map fun start => String.ofList (start ++ tag.suffix)

def emptyNode (tag : Option String) : Composed :=
  ⟨.scalar "" true tag, 1, 0, 0⟩

/-- The tag of a text: an exclamation mark alone is none. -/
def scalarTag (tag : Option String) : Option String :=
  tag.filter (· ≠ "!")

def sequence (tag : Option String) (items : List Composed) : Composed :=
  let sum (measure : Composed → Nat) :=
    items.foldl (fun total item => total + measure item) 0
  ⟨.sequence (items.map Composed.node) tag, sum Composed.parts + 2, sum Composed.jumps,
    (items.map Composed.depth).foldl max 0 + 1⟩

def mapping (tag : Option String) (entries : List (Composed × Composed)) : Composed :=
  let sum (measure : Composed → Nat) :=
    entries.foldl (fun total entry => total + measure entry.1 + measure entry.2) 0
  ⟨.mapping (entries.map fun entry => (entry.1.node, entry.2.node)) tag,
    sum Composed.parts + 2, sum Composed.jumps,
    (entries.map fun entry => max entry.1.depth entry.2.depth).foldl max 0 + 1⟩

/-- The node with a name, the last one that was given it; it has to have ended. -/
def aliased (name : List Char) : Step Composed := do
  let named ← ((← get).anchors.reverse.lookup name).join
  return ⟨named.node, 1, named.jumps + 1, named.depth⟩

def named (name : Option (List Char)) (node : Step Composed) : Step Composed :=
  match name with
  | none => node
  | some name => do
      let position := (← get).anchors.length
      modify fun state => { state with anchors := state.anchors ++ [(name, none)] }
      let node ← node
      modify fun state =>
        { state with anchors := state.anchors.set position (name, some node) }
      return node

/-- Which collections may begin where a node is expected. -/
inductive Place where
  | flow
  | block
  /-- Those of blocks, and items that are not indented. -/
  | blockValue
deriving DecidableEq

mutual

/-- Reads a node; `fuel` bounds the steps. -/
def node (handles : List (List Char × List Char)) : Nat → Place → Step Composed
  | 0, _ => failure
  | fuel + 1, place => do
      match ← peek with
      | some (.alias name) =>
          advance
          aliased name
      | _ => do
          let (name, tag) ← properties
          let tag ← tag.mapM fun tag => (tagText? handles tag : Option String)
          named name (content handles fuel place (name.isSome || tag.isSome) tag)

/-- Reads the content of a node behind its anchor and tag. -/
def content (handles : List (List Char × List Char)) :
    Nat → Place → Bool → Option String → Step Composed
  | 0, _, _, _ => failure
  | fuel + 1, place, marked, tag => do
      match ← peek with
      | some (.scalar text plain) =>
          advance
          return ⟨.scalar (String.ofList text) plain (scalarTag tag), 1, 0, 0⟩
      | some .flowSequenceStart =>
          advance
          sequence tag <$> flowItems handles fuel true
      | some .flowMappingStart =>
          advance
          mapping tag <$> flowEntries handles fuel true
      | some .blockSequenceStart =>
          if place = .flow then empty marked tag
          else
            advance
            sequence tag <$> blockItems handles fuel
      | some .blockMappingStart =>
          if place = .flow then empty marked tag
          else
            advance
            mapping tag <$> blockEntries handles fuel
      | some .blockEntry =>
          if place = .blockValue then sequence tag <$> looseItems handles fuel
          else empty marked tag
      | _ => empty marked tag
where
  /-- An empty node, which must have an anchor or a tag. -/
  empty (marked : Bool) (tag : Option String) : Step Composed :=
    if marked then pure (emptyNode tag) else failure

/-- Reads a node unless one of the given tokens is the next one. -/
def nodeUnless (handles : List (List Char × List Char)) :
    Nat → Place → List Token → Step Composed
  | 0, _, _ => failure
  | fuel + 1, place, stops => do
      if ← isNext stops then return emptyNode none
      else node handles fuel place

def blockItems (handles : List (List Char × List Char)) : Nat → Step (List Composed)
  | 0 => failure
  | fuel + 1 => do
      if ← accept .blockEntry then
        let item ← nodeUnless handles fuel .block [.blockEntry, .blockEnd]
        return item :: (← blockItems handles fuel)
      else if ← accept .blockEnd then return []
      else failure

/-- Reads the items of a block sequence that is not indented. -/
def looseItems (handles : List (List Char × List Char)) : Nat → Step (List Composed)
  | 0 => failure
  | fuel + 1 => do
      if ← accept .blockEntry then
        let item ←
          nodeUnless handles fuel .block [.blockEntry, .key, .value, .blockEnd]
        return item :: (← looseItems handles fuel)
      else return []

def blockEntries (handles : List (List Char × List Char)) :
    Nat → Step (List (Composed × Composed))
  | 0 => failure
  | fuel + 1 => do
      if ← accept .key then
        let stops : List Token := [.key, .value, .blockEnd]
        let key ← nodeUnless handles fuel .blockValue stops
        let value ←
          if ← accept .value then nodeUnless handles fuel .blockValue stops
          else pure (emptyNode none)
        return (key, value) :: (← blockEntries handles fuel)
      else if ← accept .blockEnd then return []
      else failure

/-- Reads the value of an entry of a flow collection, where one stands. -/
def flowValue (handles : List (List Char × List Char)) :
    Nat → List Token → Step Composed
  | 0, _ => failure
  | fuel + 1, stops => do
      if ← accept .value then nodeUnless handles fuel .flow stops
      else return emptyNode none

/-- Reads the items of a flow sequence and its end; all but the first are behind a
comma.  An item may be a single entry of a mapping; where its key is empty, the token
behind counts for nothing. -/
def flowItems (handles : List (List Char × List Char)) :
    Nat → Bool → Step (List Composed)
  | 0, _ => failure
  | fuel + 1, first => do
      if ← accept .flowSequenceEnd then return []
      else
        unless first do
          unless ← accept .flowEntry do failure
        if ← accept .flowSequenceEnd then return []
        else if ← accept .key then
          let stops : List Token := [.flowEntry, .flowSequenceEnd]
          let isEmpty ← isNext (.value :: stops)
          let key ← nodeUnless handles fuel .flow (.value :: stops)
          if isEmpty then advance
          let value ← flowValue handles fuel stops
          return mapping none [(key, value)] :: (← flowItems handles fuel false)
        else
          let item ← node handles fuel .flow
          return item :: (← flowItems handles fuel false)

/-- Reads the entries of a flow mapping and its end; all but the first are behind a
comma.  A node that is not marked as a key has no value. -/
def flowEntries (handles : List (List Char × List Char)) :
    Nat → Bool → Step (List (Composed × Composed))
  | 0, _ => failure
  | fuel + 1, first => do
      if ← accept .flowMappingEnd then return []
      else
        unless first do
          unless ← accept .flowEntry do failure
        let stops : List Token := [.flowEntry, .flowMappingEnd]
        if ← accept .flowMappingEnd then return []
        else if ← accept .key then
          let key ← nodeUnless handles fuel .flow (.value :: stops)
          let value ← flowValue handles fuel stops
          return (key, value) :: (← flowEntries handles fuel false)
        else
          let key ← node handles fuel .flow
          return (key, emptyNode none) :: (← flowEntries handles fuel false)

end

/-! ## Documents -/

/-- The versions of the format that a document may be written in. -/
def isKnownVersion (major minor : Nat) : Bool :=
  major == 1 && (minor == 1 || minor == 2)

/-- Reads the directives in front of a document: one version at most, and each handle
once.  `fuel` bounds their number. -/
def directives (versioned : Bool) (handles : List (List Char × List Char)) :
    Nat → Step (Bool × List (List Char × List Char))
  | 0 => failure
  | fuel + 1 => do
      match ← peek with
      | some (.directive (.version major minor)) =>
          if versioned || !isKnownVersion major minor then failure
          else
            advance
            directives true handles fuel
      | some (.directive (.handle name start)) =>
          if (handles.lookup name).isSome then failure
          else
            advance
            directives versioned ((name, start) :: handles) fuel
      | _ => return (versioned, handles)

def endsDocument : Step Bool := do
  match ← peek with
  | some (.directive _) => return true
  | some .documentStart => return true
  | some .documentEnd => return true
  | some .streamEnd => return true
  | _ => return false

/-- Reads a document: directives and a start mark, or no mark at all. -/
def document (fuel : Nat) : Step Composed := do
  let (versioned, written) ← directives false [] fuel
  let handles := written ++ standardHandles
  if ← accept .documentStart then
    if ← endsDocument then return emptyNode none
    else node handles fuel .block
  else if versioned || !written.isEmpty then failure
  else node handles fuel .block

/-- Moves over end marks; `fuel` bounds their number. -/
def skipEnds : Nat → Step Unit
  | 0 => failure
  | fuel + 1 => do
      if ← accept .documentEnd then skipEnds fuel
      else return ()

/-- Reads the only document of a stream; an empty stream holds an empty one. -/
def stream (fuel : Nat) : Step Composed := do
  if (← peek) = some .streamEnd then return emptyNode none
  else
    let composed ← document fuel
    skipEnds fuel
    if (← peek) = some .streamEnd then return composed
    else failure

end Composer

namespace Node

def deepest : Nat :=
  128

/-- How many names may be followed for each part of a document. -/
def jumpsPerPart : Nat :=
  100

def ofTokens? (tokens : List Token) : Option Node := do
  let fuel := 4 * tokens.length + 4
  let (composed, _) ← (Composer.stream fuel).run ⟨tokens, []⟩
  if composed.depth ≤ deepest ∧ composed.jumps ≤ jumpsPerPart * composed.parts then
    some composed.node
  else none

def ofText? (text : String) : Option Node :=
  Token.ofText? text >>= ofTokens?

end Node

end DeployTarget.Yaml
