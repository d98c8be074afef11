import DeployTarget.Json.Basic

/-!
# The text of plain data

Compact text writes no blanks.  In a quoted text the quote, the backslash and the
characters below `U+0020` are escaped, by a short escape where there is one, and
every other character stands for itself.  Indented text puts each item on a line of
its own, two blanks deeper than the list or object that holds it.
-/

namespace DeployTarget.Json

def hexDigit (digit : Nat) : Char :=
  Nat.digitChar (digit % 16)

def escape (c : Char) : List Char :=
  if c = '"' then ['\\', '"']
  else if c = '\\' then ['\\', '\\']
  else if c = '\n' then ['\\', 'n']
  else if c = '\r' then ['\\', 'r']
  else if c = '\t' then ['\\', 't']
  else if c.toNat = 8 then ['\\', 'b']
  else if c.toNat = 12 then ['\\', 'f']
  else if c.toNat < 32 then
    ['\\', 'u', '0', '0', hexDigit (c.toNat / 16), hexDigit c.toNat]
  else [c]

def quote (text : String) : List Char :=
  '"' :: text.toList.flatMap escape ++ ['"']

mutual

def characters : Json → List Char
  | .null => ['n', 'u', 'l', 'l']
  | .bool true => ['t', 'r', 'u', 'e']
  | .bool false => ['f', 'a', 'l', 's', 'e']
  | .number value => value.characters
  | .string text => quote text
  | .array [] => ['[', ']']
  | .array (item :: rest) => '[' :: item.characters ++ remainingItems rest
  | .object [] => ['{', '}']
  | .object ((key, value) :: rest) =>
      '{' :: quote key ++ ':' :: value.characters ++ remainingEntries rest

/-- The items of a list after its first, each behind a comma, and the closing bracket. -/
def remainingItems : List Json → List Char
  | [] => [']']
  | item :: rest => ',' :: item.characters ++ remainingItems rest

/-- The entries of an object after its first, each behind a comma, and the closing brace. -/
def remainingEntries : List (String × Json) → List Char
  | [] => ['}']
  | (key, value) :: rest =>
      ',' :: quote key ++ ':' :: value.characters ++ remainingEntries rest

end

def compact (value : Json) : String :=
  String.ofList value.characters

/-- The text of a value as it stands inside another text: a text without quotes,
nothing for null, and compact text otherwise. -/
def rendered : Json → String
  | .string text => text
  | .null => ""
  | value => value.compact

def newline (depth : Nat) : List Char :=
  '\n' :: List.replicate (2 * depth) ' '

mutual

/-- The characters of the indented text of a value at a depth. -/
def indentedCharacters (depth : Nat) : Json → List Char
  | .null => ['n', 'u', 'l', 'l']
  | .bool true => ['t', 'r', 'u', 'e']
  | .bool false => ['f', 'a', 'l', 's', 'e']
  | .number value => value.characters
  | .string text => quote text
  | .array [] => ['[', ']']
  | .array (item :: rest) =>
      '[' :: newline (depth + 1) ++ item.indentedCharacters (depth + 1) ++
        indentedItems depth rest
  | .object [] => ['{', '}']
  | .object ((key, value) :: rest) =>
      '{' :: newline (depth + 1) ++ quote key ++ ':' :: ' ' ::
        value.indentedCharacters (depth + 1) ++ indentedEntries depth rest

/-- The items of a list at a depth after its first, and the closing bracket. -/
def indentedItems (depth : Nat) : List Json → List Char
  | [] => newline depth ++ [']']
  | item :: rest =>
      ',' :: newline (depth + 1) ++ item.indentedCharacters (depth + 1) ++
        indentedItems depth rest

/-- The entries of an object at a depth after its first, and the closing brace. -/
def indentedEntries (depth : Nat) : List (String × Json) → List Char
  | [] => newline depth ++ ['}']
  | (key, value) :: rest =>
      ',' :: newline (depth + 1) ++ quote key ++ ':' :: ' ' ::
        value.indentedCharacters (depth + 1) ++ indentedEntries depth rest

end

def indented (value : Json) : String :=
  String.ofList (value.indentedCharacters 0)

end DeployTarget.Json
