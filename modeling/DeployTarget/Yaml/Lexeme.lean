import DeployTarget.Json.Reader
import DeployTarget.Yaml.Cursor

/-!
# Scalars, tags and names in the text of a document

Each reader takes the cursor at the first character of a lexeme and gives what the
lexeme says and the cursor behind it.  A text is written plain, between single quotes,
between double quotes with escapes, or as a block of lines below its indicator.
-/

namespace DeployTarget.Yaml.Lexeme

/-! ## Quoted texts -/

def shortEscape? : Char → Option Char
  | '0' => some '\x00'
  | 'a' => some '\x07'
  | 'b' => some '\x08'
  | 't' => some '\t'
  | '\t' => some '\t'
  | 'n' => some '\n'
  | 'v' => some '\x0b'
  | 'f' => some '\x0c'
  | 'r' => some '\r'
  | 'e' => some '\x1b'
  | ' ' => some ' '
  | '"' => some '"'
  | '/' => some '/'
  | '\\' => some '\\'
  | 'N' => some '\u0085'
  | '_' => some '\u00a0'
  | 'L' => some '\u2028'
  | 'P' => some '\u2029'
  | _ => none

/-- The number of hexadecimal digits behind the mark of a long escape. -/
def escapeLength? : Char → Option Nat
  | 'x' => some 2
  | 'u' => some 4
  | 'U' => some 8
  | _ => none

def hexNumber? (digits : List Char) : Option Nat :=
  digits.foldlM (fun value c => (Json.hexValue? c).map (16 * value + ·)) 0

def escape? (place : Cursor) : Option (Char × Cursor) := do
  let mark ← place.head?
  match shortEscape? mark with
  | some c => return (c, place.next)
  | none =>
      let length ← escapeLength? mark
      let digits := place.next.rest.take length
      if digits.length ≠ length then none
      else
        let c ← hexNumber? digits >>= Json.scalar?
        return (c, place.next.skip length)

/-- Reads a quoted text behind its opening quote, with the text so far in reverse.
`fuel` is more than the characters that remain. -/
def quotedTail? (double : Bool) : Nat → List Char → Cursor → Option (List Char × Cursor)
  | 0, _, _ => none
  | fuel + 1, text, place =>
      if place.atDocumentMark then none
      else
        match place.rest with
        | [] => none
        | c :: rest =>
            if isWhite c || isBreak c then do
              let (gap, place) ← Gap.read? 0 fuel .none place
              quotedTail? double fuel (gap.folded.reverse ++ text) place
            else if double && c == '"' then some (text.reverse, place.next)
            else if double && c == '\\' then
              if rest.head?.any isBreak then do
                let (gap, place) ← Gap.read? 0 fuel .escaped place.next.nextLine
                quotedTail? double fuel (gap.folded.reverse ++ text) place
              else do
                let (c, place) ← escape? place.next
                quotedTail? double fuel (c :: text) place
            else if !double && c == '\'' then
              if rest.head? = some '\'' then
                quotedTail? double fuel ('\'' :: text) (place.skip 2)
              else some (text.reverse, place.next)
            else quotedTail? double fuel (c :: text) place.next

/-- Reads a text between quotes; `fuel` is more than the characters that remain. -/
def quoted? (double : Bool) (fuel : Nat) (place : Cursor) : Option (List Char × Cursor) :=
  quotedTail? double fuel [] place.next

/-! ## Plain texts -/

/-- An indicator that separates or encloses the items of a flow collection. -/
def isFlowIndicator (c : Char) : Bool :=
  c == ',' || c == '[' || c == ']' || c == '{' || c == '}'

def endsPlain (inFlow : Bool) : List Char → Bool
  | ':' :: rest => endsWord rest
  | c :: _ => inFlow && isFlowIndicator c
  | [] => true

/-- Whether a colon stands in front of an indicator that it may not touch in a flow
collection. -/
def isStrayColon (inFlow : Bool) : List Char → Bool
  | ':' :: c :: _ => inFlow && (isFlowIndicator c || c == '?')
  | _ => false

/-- A plain text as it was read. -/
structure Plain where
  text : List Char
  /-- The cursor behind it and the blanks that follow. -/
  place : Cursor
  broken : Bool

/-- Reads a plain text, with the text so far in reverse.  A gap is pending until the
text goes on behind it.  `fuel` is more than twice the characters that remain. -/
def plainTail? (inFlow : Bool) (indent : Int) :
    Nat → List Char → Option Gap → Cursor → Option Plain
  | 0, _, _, _ => none
  | fuel + 1, text, pending, place =>
      let gap := pending.getD .none
      if pending.isSome && (place.atDocumentMark || place.head? == some '#') then
        some ⟨text.reverse, place, gap.broken⟩
      else
        match place.rest with
        | [] => some ⟨text.reverse, place, gap.broken⟩
        | c :: _ =>
            if isWhite c || isBreak c then do
              let (gap, place) ← Gap.read? indent fuel gap place
              if !inFlow && place.column < indent then
                some ⟨text.reverse, place, gap.broken⟩
              else plainTail? inFlow indent fuel text (some gap) place
            else if isStrayColon inFlow place.rest then none
            else if endsPlain inFlow place.rest then
              some ⟨text.reverse, place, gap.broken⟩
            else
              plainTail? inFlow indent fuel (c :: gap.folded.reverse ++ text) none place.next

/-- Reads a plain text that is indented to a column; `fuel` is more than the characters
that remain. -/
def plain? (inFlow : Bool) (indent : Int) (fuel : Nat) (place : Cursor) : Option Plain :=
  plainTail? inFlow indent (2 * fuel) [] (some .none) place

/-! ## Blocks of lines -/

/-- What becomes of the line breaks at the end of a block. -/
inductive Chomping where
  | strip
  | clip
  | keep
deriving DecidableEq, Repr

def Chomping.ofIndicator? : Char → Option Chomping
  | '+' => some .keep
  | '-' => some .strip
  | _ => none

/-- The header of a block. -/
structure Header where
  chomping : Chomping
  /-- How far the lines are indented, where that is written. -/
  indentation : Option Nat

/-- Reads the indentation of a header, where it stands: a digit other than zero. -/
def indentation? (place : Cursor) : Option (Option Nat × Cursor) :=
  match place.head? with
  | some c =>
      if c = '0' then none
      else if c.isDigit then some (some (c.toNat - '0'.toNat), place.next)
      else some (none, place)
  | none => some (none, place)

/-- Reads the header of a block behind its indicator; its two parts come in any
order. -/
def header? (place : Cursor) : Option (Header × Cursor) := do
  match place.head? >>= Chomping.ofIndicator? with
  | some chomping =>
      let (indentation, place) ← indentation? place.next
      return (⟨chomping, indentation⟩, place)
  | none =>
      let (indentation, place) ← indentation? place
      match indentation, place.head? >>= Chomping.ofIndicator? with
      | some _, some chomping => return (⟨chomping, indentation⟩, place.next)
      | _, _ => return (⟨.clip, indentation⟩, place)

/-- Moves over the rest of a line that holds nothing but blanks and a comment. -/
def emptyLine? (place : Cursor) : Option Cursor :=
  let place := place.dropWhile isWhite
  let place := if place.head? = some '#' then place.dropWhile (!isBreak ·) else place
  match place.head? with
  | none => some place
  | some c => if isBreak c then some place.nextLine else none

/-- The empty lines in front of a line of a block. -/
structure EmptyLines where
  breaks : List Char
  deepest : Nat
  place : Cursor

/-- Moves over empty lines, and over the indentation of the line behind them: at most
as far as the lines are indented, or all of it where that is not known.  A tab may not
stand in the indentation.  `fuel` bounds the lines. -/
def emptyLines? (indent : Option Nat) :
    Nat → List Char → Nat → Cursor → Option EmptyLines
  | 0, _, _, _ => none
  | fuel + 1, breaks, deepest, place =>
      let blanks := place.rest.takeWhile (· == ' ')
      let depth := match indent with
        | some indent => min blanks.length (indent - place.column)
        | none => blanks.length
      let place := place.skip depth
      let deepest := max deepest place.column
      let inIndentation := indent.all (place.column < ·)
      match place.rest with
      | [] => some ⟨breaks.reverse, deepest, place⟩
      | c :: _ =>
          if inIndentation && c == '\t' then none
          else if isBreak c then
            emptyLines? indent fuel (Cursor.breakCharacter place.rest :: breaks) deepest
              place.nextLine
          else some ⟨breaks.reverse, deepest, place⟩

/-- What stands between two lines of a block: in a folded block a single break between
lines that do not begin with blanks becomes a blank. -/
def lineGap (literal : Bool) (lastIsMore nextIsMore : Bool) (lineBreak : List Char)
    (breaks : List Char) : List Char :=
  if !literal && lineBreak == ['\n'] && !lastIsMore && !nextIsMore then
    if breaks = [] then [' '] else breaks
  else lineBreak ++ breaks

/-- The lines of a block, with the text so far, the break of the last line, whether it
began with a blank, and the empty lines behind it.  `fuel` is more than the characters
that remain. -/
def blockLines? (literal : Bool) (chomping : Chomping) (indent : Nat) :
    Nat → List Char → List Char → Bool → EmptyLines → Option (List Char × Cursor)
  | 0, _, _, _, _ => none
  | fuel + 1, text, lineBreak, lastIsMore, gap =>
      let place := gap.place
      match place.rest with
      | c :: _ =>
          if place.column = indent then do
            let nextIsMore := isWhite c
            let between := lineGap literal lastIsMore nextIsMore lineBreak gap.breaks
            let (line, place) := place.takeWhile (!isBreak ·)
            let text := text ++ between ++ line
            let (lineBreak, place) :=
              if place.rest = [] then ([], place)
              else ([Cursor.breakCharacter place.rest], place.nextLine)
            let gap ← emptyLines? (some indent) fuel [] 0 place
            blockLines? literal chomping indent fuel text lineBreak nextIsMore gap
          else some (finish text lineBreak gap, place)
      | [] => some (finish text lineBreak gap, place)
where
  finish (text lineBreak : List Char) (gap : EmptyLines) : List Char :=
    match chomping with
    | .strip => text
    | .clip => text ++ lineBreak
    | .keep => text ++ lineBreak ++ gap.breaks

/-- Reads a block of lines inside a collection that is indented to a column; `fuel` is
more than the characters that remain. -/
def block? (literal : Bool) (parent : Int) (fuel : Nat) (place : Cursor) :
    Option (List Char × Cursor) := do
  let (header, place) ← header? place.next
  let place ← emptyLine? place
  let written := header.indentation.map fun indentation => (max parent 0).toNat + indentation
  let gap ← emptyLines? written fuel [] 0 place
  let indent := written.getD (max gap.deepest (max (parent + 1) 1).toNat)
  blockLines? literal header.chomping indent fuel [] [] false gap

/-! ## Names and tags -/

def endsName (rest : List Char) : Bool :=
  endsWord rest ||
    rest.head?.any fun c =>
      c == '?' || c == ':' || c == ',' || c == ']' || c == '}' || c == '%' || c == '@' ||
        c.toNat == 0x60

def anchor? (place : Cursor) : Option (List Char × Cursor) :=
  let (name, place) := place.next.takeWhile isNameCharacter
  if name ≠ [] ∧ endsName place.rest then some (name, place) else none

/-- A character of a tag; the last three stand only in a tag between angle brackets. -/
def isTagCharacter (bracketed : Bool) (c : Char) : Bool :=
  isNameCharacter c ||
    [';', '/', '?', ':', '@', '&', '=', '+', '$', '.', '%', '!', '~', '*', '\'', '(',
      ')'].contains c ||
    (bracketed && [',', '[', ']'].contains c)

def escapedByte? : List Char → Option (Nat × List Char)
  | '%' :: a :: b :: rest => do
      let high ← Json.hexValue? a
      let low ← Json.hexValue? b
      return (16 * high + low, rest)
  | _ => none

/-- Reads a number of escaped bytes that go on with a character. -/
def continuation? : Nat → Nat → List Char → Option (Nat × List Char)
  | 0, code, rest => some (code, rest)
  | count + 1, code, rest => do
      let (byte, rest) ← escapedByte? rest
      if byte / 64 = 2 then continuation? count (64 * code + byte % 64) rest else none

def escapedCharacter? (text : List Char) : Option (Char × List Char) := do
  let (byte, rest) ← escapedByte? text
  let (count, code) ←
    if byte < 0x80 then some (0, byte)
    else if byte / 32 = 6 then some (1, byte % 32)
    else if byte / 16 = 14 then some (2, byte % 16)
    else if byte / 8 = 30 then some (3, byte % 8)
    else none
  let (code, rest) ← continuation? count code rest
  let c ← Json.scalar? code
  return (c, rest)

/-- Replaces the escapes of a tag; `fuel` bounds the characters. -/
def unescapedTag? : Nat → List Char → Option (List Char)
  | _, [] => some []
  | 0, _ => none
  | fuel + 1, '%' :: rest => do
      let (c, rest) ← escapedCharacter? ('%' :: rest)
      (c :: ·) <$> unescapedTag? fuel rest
  | fuel + 1, c :: rest => (c :: ·) <$> unescapedTag? fuel rest

def tagText? (bracketed : Bool) (place : Cursor) : Option (List Char × Cursor) := do
  let (written, place) := place.takeWhile (isTagCharacter bracketed)
  let text ← unescapedTag? written.length written
  return (text, place)

/-- A tag as it is written: a handle that stands for a beginning, and the rest. -/
structure Tag where
  /-- The handle, empty for a tag that is written whole. -/
  handle : List Char
  suffix : List Char
deriving DecidableEq, Repr

/-- Reads an exclamation mark, a name and possibly one more exclamation mark. -/
def handle (place : Cursor) : List Char × Cursor :=
  let (name, behind) := place.next.takeWhile isNameCharacter
  if behind.head? = some '!' then ('!' :: name ++ ['!'], behind.next)
  else ('!' :: name, behind)

/-- Reads a tag with a handle, or with the handle `!` where it has no other. -/
def shorthandTag? (place : Cursor) : Option (Tag × Cursor) := do
  let (written, behind) := handle place
  if 1 < written.length ∧ written.getLast? = some '!' then
    let (suffix, place) ← tagText? false behind
    if suffix = [] then none else some (⟨written, suffix⟩, place)
  else
    let (more, place) ← tagText? false behind
    let suffix := written.drop 1 ++ more
    if suffix = [] then some (⟨[], ['!']⟩, place) else some (⟨['!'], suffix⟩, place)

def verbatimTag? (place : Cursor) : Option (Tag × Cursor) := do
  let (text, place) ← tagText? true (place.skip 2)
  if text ≠ [] ∧ place.head? = some '>' then some (⟨[], text⟩, place.next) else none

/-- Reads a tag, which ends with a word or in front of a comma of a flow collection. -/
def tag? (inFlow : Bool) (place : Cursor) : Option (Tag × Cursor) := do
  let (tag, place) ←
    if place.next.head? = some '<' then verbatimTag? place else shorthandTag? place
  if endsWord place.rest || (inFlow && place.head? == some ',') then some (tag, place)
  else none

/-! ## Directives -/

/-- What a directive says. -/
inductive Directive where
  | version (major minor : Nat)
  | handle (name : List Char) (start : List Char)
deriving DecidableEq, Repr

def longestVersion : Nat :=
  9

def versionNumber? (place : Cursor) : Option (Nat × Cursor) :=
  let (digits, place) := place.takeWhile Char.isDigit
  if digits ≠ [] ∧ digits.length ≤ longestVersion then
    some (Number.ofDigits digits, place)
  else none

def version? (place : Cursor) : Option (Directive × Cursor) := do
  let (major, place) ← versionNumber? (place.dropWhile isWhite)
  if place.head? = some '.' then
    let (minor, place) ← versionNumber? place.next
    return (.version major minor, place)
  else none

def handleDirective? (place : Cursor) : Option (Directive × Cursor) := do
  let place := place.dropWhile isWhite
  if place.head? ≠ some '!' then none
  else
    let (name, place) := handle place
    if name ≠ ['!'] ∧ name.getLast? ≠ some '!' then none
    else if !place.head?.any isWhite then none
    else
      let (start, place) ← tagText? true (place.dropWhile isWhite)
      if start ≠ [] ∧ endsWord place.rest then some (.handle name start, place) else none

def directive? (place : Cursor) : Option (Directive × Cursor) := do
  let (name, place) := place.next.takeWhile isNameCharacter
  if name = [] ∨ !endsWord place.rest then none
  else
    let (directive, place) ←
      if name = ['Y', 'A', 'M', 'L'] then version? place
      else if name = ['T', 'A', 'G'] then handleDirective? place
      else none
    let place ← emptyLine? place
    return (directive, place)

end DeployTarget.Yaml.Lexeme
