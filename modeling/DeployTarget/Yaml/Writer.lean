import DeployTarget.Yaml.Cursor
import DeployTarget.Yaml.Scalar

/-!
# Writing documents

Plain data is written as a block document: one entry or item a line, two columns deeper
than what holds it, except that the items of a list stand below the key of the list.  A
text is written plain where it reads back as itself, else between single quotes, and
between double quotes where it holds what cannot stand for itself.  A text with line
feeds is written as a block of lines.
-/

namespace DeployTarget.Yaml.Writer

/-! ## Styles of texts -/

/-- How a text is written. -/
inductive Style where
  | plain
  | singleQuoted
  | doubleQuoted
  | lines
deriving DecidableEq, Repr

def isPrintable (c : Char) : Bool :=
  let code := c.toNat
  code == 0x0A || (0x20 ≤ code && code ≤ 0x7E) || (0xA0 ≤ code && code ≤ 0xD7FF) ||
    (0xE000 ≤ code && code ≤ 0xFFFD && code != 0xFEFF)

def isFirstIndicator (c : Char) : Bool :=
  ['#', ',', '[', ']', '\x7b', '\x7d', '&', '*', '!', '|', '>', '\'', '"', '%',
    '@'].contains c || c.toNat == 0x60

def beginsWithIndicator : List Char → Bool
  | '-' :: '-' :: '-' :: _ => true
  | '.' :: '.' :: '.' :: _ => true
  | c :: rest => isFirstIndicator c || (c == '?' || c == ':' || c == '-') && endsWord rest
  | [] => false

/-- Whether an indicator stands inside a text: a colon in front of a blank, or a number
sign behind one. -/
def holdsIndicator : List Char → Bool
  | first :: second :: rest =>
      (second == ':' && endsWord rest) ||
        (second == '#' && (isWhite first || isBreak first)) ||
        holdsIndicator (second :: rest)
  | _ => false

/-- Whether two characters of the given classes stand side by side. -/
def holdsPair (first second : Char → Bool) : List Char → Bool
  | a :: b :: rest => first a && second b || holdsPair first second (b :: rest)
  | _ => false

/-- Whether a blank or a line break stands at either end. -/
def hasLooseEnd (text : List Char) : Bool :=
  let loose (c : Char) := c == ' ' || isBreak c
  text.head?.any loose || text.getLast?.any loose

def needsEscapes (text : List Char) : Bool :=
  text.any (!isPrintable ·) || holdsPair (· == ' ') isBreak text

def allowsPlain (text : List Char) : Bool :=
  !(beginsWithIndicator text || holdsIndicator text || hasLooseEnd text ||
    text.any isBreak || needsEscapes text)

def allowsSingleQuotes (text : List Char) : Bool :=
  !(needsEscapes text || holdsPair isBreak (· == ' ') text)

/-- Whether a text can be written as a block of lines. -/
def allowsLines (text : List Char) : Bool :=
  text ≠ [] && !(needsEscapes text || text.getLast? == some ' ')

/-- The words that were booleans in the first version of the format. -/
def formerBooleans : List String :=
  ["y", "Y", "yes", "Yes", "YES", "n", "N", "no", "No", "NO", "on", "On", "ON",
    "off", "Off", "OFF"]

/-- Whether a plain text might not read back as itself. -/
def readsOtherwise (text : String) : Bool :=
  Scalar.ofPlain? text != some (.text text) || Scalar.isPaddedSigned text.toList ||
    formerBooleans.contains text

def styleOf (text : String) : Style :=
  let characters := text.toList
  if '\n' ∈ characters then
    if allowsLines characters then .lines else .doubleQuoted
  else if !readsOtherwise text && allowsPlain characters then .plain
  else if allowsSingleQuotes characters then .singleQuoted
  else .doubleQuoted

/-! ## Texts -/

def blanks (column : Nat) : List Char :=
  List.replicate column ' '

/-- The text between single quotes, with lines of its own behind its line breaks. -/
def singleQuotedTail (indent : Nat) : Bool → List Char → List Char
  | afterBreak, [] => (if afterBreak then blanks indent else []) ++ ['\'']
  | afterBreak, c :: rest =>
      if isBreak c then c :: singleQuotedTail indent true rest
      else
        (if afterBreak then blanks indent else []) ++
          (if c = '\'' then ['\'', '\''] else [c]) ++ singleQuotedTail indent false rest

def hexDigit (digit : Nat) : Char :=
  (Nat.digitChar (digit % 16)).toUpper

/-- The last hexadecimal digits of a number. -/
def hexDigits (length number : Nat) : List Char :=
  (List.range length).reverse.map fun position => hexDigit (number >>> (4 * position))

def shortEscape? (c : Char) : Option Char :=
  match c.toNat with
  | 0x00 => some '0'
  | 0x07 => some 'a'
  | 0x08 => some 'b'
  | 0x09 => some 't'
  | 0x0A => some 'n'
  | 0x0B => some 'v'
  | 0x0C => some 'f'
  | 0x0D => some 'r'
  | 0x1B => some 'e'
  | 0x22 => some '"'
  | 0x5C => some '\\'
  | 0x85 => some 'N'
  | 0x2028 => some 'L'
  | 0x2029 => some 'P'
  | _ => none

def doubleQuotedCharacter (c : Char) : List Char :=
  match shortEscape? c with
  | some mark => ['\\', mark]
  | none =>
      if isPrintable c then [c]
      else if c.toNat ≤ 0xFF then '\\' :: 'x' :: hexDigits 2 c.toNat
      else if c.toNat ≤ 0xFFFF then '\\' :: 'u' :: hexDigits 4 c.toNat
      else '\\' :: 'U' :: hexDigits 8 c.toNat

/-- What the header of a block says of the line breaks at its end. -/
def chomping (text : List Char) : List Char :=
  match text.reverse with
  | [] => ['-']
  | [last] => if isBreak last then ['+'] else ['-']
  | last :: previous :: _ =>
      if !isBreak last then ['-'] else if isBreak previous then ['+'] else []

/-- The header of a block of lines: its indentation where the text begins with a blank
or a line break, and what becomes of the breaks at its end. -/
def header (text : List Char) : List Char :=
  let indentation := if text.head?.any fun c => c == ' ' || isBreak c then ['2'] else []
  '|' :: indentation ++ chomping text

/-- The lines of a block; an empty line is not indented. -/
def blockTail (indent : Nat) : Bool → List Char → List Char
  | _, [] => []
  | afterBreak, c :: rest =>
      if isBreak c then c :: blockTail indent true rest
      else
        (if afterBreak then blanks indent else []) ++ c :: blockTail indent false rest

/-- A text with a line break at its end, which is added where there is none yet. -/
def endLine (written : List Char) : List Char :=
  if written.getLast?.any isBreak then written else written ++ ['\n']

def writeText (indent : Nat) (text : String) : List Char :=
  let characters := text.toList
  match styleOf text with
  | .plain => characters
  | .singleQuoted => '\'' :: singleQuotedTail indent false characters
  | .doubleQuoted => '"' :: characters.flatMap doubleQuotedCharacter ++ ['"']
  | .lines => header characters ++ '\n' :: blockTail indent true characters

/-! ## Collections -/

/-- The most bytes of a key that stands in front of its colon without a mark. -/
def longestKey : Nat :=
  128

/-- Whether a key stands in front of its colon without a mark. -/
def isSimpleKey (key : String) : Bool :=
  !key.toList.any isBreak && key.utf8ByteSize ≤ longestKey

/-- The key of an entry at a column, with its colon. -/
def writeKey (indent : Nat) (key : String) : List Char :=
  if isSimpleKey key then writeText (indent + 2) key ++ [':']
  else '?' :: ' ' :: endLine (writeText (indent + 2) key) ++ blanks indent ++ [':']

mutual

/-- A value behind the colon of an entry at a column. -/
def writeValue (indent : Nat) : Json → List Char
  | .null => " null\n".toList
  | .bool true => " true\n".toList
  | .bool false => " false\n".toList
  | .number value => ' ' :: value.characters ++ ['\n']
  | .string text => ' ' :: endLine (writeText (indent + 2) text)
  | .array [] => " []\n".toList
  | .array items => '\n' :: writeItems indent (blanks indent) items
  | .object [] => [' ', '\x7b', '\x7d', '\n']
  | .object entries => '\n' :: writeEntries (indent + 2) (blanks (indent + 2)) entries

def writeItem (indent : Nat) : Json → List Char
  | .null => " null\n".toList
  | .bool true => " true\n".toList
  | .bool false => " false\n".toList
  | .number value => ' ' :: value.characters ++ ['\n']
  | .string text => ' ' :: endLine (writeText (indent + 2) text)
  | .array [] => " []\n".toList
  | .array items => writeItems (indent + 2) [' '] items
  | .object [] => [' ', '\x7b', '\x7d', '\n']
  | .object entries => writeEntries (indent + 2) [' '] entries

/-- Items at a column, the first behind the given characters. -/
def writeItems (indent : Nat) (first : List Char) : List Json → List Char
  | [] => []
  | item :: rest =>
      first ++ '-' :: writeItem indent item ++ writeItems indent (blanks indent) rest

/-- Entries at a column, the first behind the given characters.  The value of a marked
key stands like an item. -/
def writeEntries (indent : Nat) (first : List Char) : List (String × Json) → List Char
  | [] => []
  | (key, value) :: rest =>
      first ++ writeKey indent key ++
        (if isSimpleKey key then writeValue indent value else writeItem indent value) ++
        writeEntries indent (blanks indent) rest

end

def writeDocument : Json → List Char
  | .array (item :: rest) => writeItems 0 [] (item :: rest)
  | .object (entry :: rest) => writeEntries 0 [] (entry :: rest)
  | value => (writeItem 0 value).drop 1

end Writer

def write (value : Json) : String :=
  String.ofList (Writer.writeDocument value)

end DeployTarget.Yaml
