import DeployTarget.Json.Basic

/-!
# Reading plain data

A value is read from text without loss of order: the entries of an object stay as
they are written.  A number without fraction and exponent that fits 64 bits is an
integer; every other number is the nearest float, and so is `-0`, which keeps its
sign.  A number too large for a float makes the text unreadable.
-/

namespace DeployTarget.Json

def isSpace (c : Char) : Bool :=
  c == ' ' || c == '\n' || c == '\r' || c == '\t'

/-- The characters from the first one that is not a blank. -/
def skipSpaces (cs : List Char) : List Char :=
  cs.dropWhile isSpace

def hexValue? (c : Char) : Option Nat :=
  if '0' ≤ c ∧ c ≤ '9' then some (c.toNat - '0'.toNat)
  else if 'a' ≤ c ∧ c ≤ 'f' then some (c.toNat - 'a'.toNat + 10)
  else if 'A' ≤ c ∧ c ≤ 'F' then some (c.toNat - 'A'.toNat + 10)
  else none

def hexUnit? : List Char → Option (Nat × List Char)
  | a :: b :: c :: d :: rest => do
      let a ← hexValue? a
      let b ← hexValue? b
      let c ← hexValue? c
      let d ← hexValue? d
      return (((a * 16 + b) * 16 + c) * 16 + d, rest)
  | _ => none

def scalar? (code : Nat) : Option Char :=
  if h : code.isValidChar then some (Char.ofNatAux code h) else none

/-- The character behind `\u`, a pair of surrogates counting as one. -/
def unicodeEscape? (cs : List Char) : Option (Char × List Char) := do
  let (unit, rest) ← hexUnit? cs
  if 0xD800 ≤ unit ∧ unit < 0xDC00 then
    match rest with
    | '\\' :: 'u' :: rest =>
        let (low, rest) ← hexUnit? rest
        if 0xDC00 ≤ low ∧ low < 0xE000 then
          let c ← scalar? (0x10000 + (unit - 0xD800) * 0x400 + (low - 0xDC00))
          return (c, rest)
        else none
    | _ => none
  else
    let c ← scalar? unit
    return (c, rest)

/-- The characters of a quoted text after the opening quote, and what follows the
closing one; `fuel` bounds the characters that are read. -/
def quoted? : Nat → List Char → Option (List Char × List Char)
  | 0, _ => none
  | _, [] => none
  | _ + 1, '"' :: rest => some ([], rest)
  | fuel + 1, '\\' :: 'u' :: rest => do
      let (c, rest) ← unicodeEscape? rest
      let (text, rest) ← quoted? fuel rest
      return (c :: text, rest)
  | fuel + 1, '\\' :: mark :: rest => do
      let c ← match mark with
        | '"' => some '"'
        | '\\' => some '\\'
        | '/' => some '/'
        | 'b' => some '\x08'
        | 'f' => some '\x0c'
        | 'n' => some '\n'
        | 'r' => some '\r'
        | 't' => some '\t'
        | _ => none
      let (text, rest) ← quoted? fuel rest
      return (c :: text, rest)
  | fuel + 1, c :: rest =>
      if c.toNat < 32 then none
      else do
        let (text, rest) ← quoted? fuel rest
        return (c :: text, rest)

/-- The digits of a fraction, at least one, where a point stands. -/
def fraction? : List Char → Option (List Char × List Char)
  | '.' :: rest =>
      match rest.takeWhile Char.isDigit with
      | [] => none
      | digits => some (digits, rest.dropWhile Char.isDigit)
  | rest => some ([], rest)

def exponent? (cs : List Char) : Option (Option Int × List Char) :=
  match cs with
  | mark :: rest =>
      if mark = 'e' ∨ mark = 'E' then
        let (negative, rest) := match rest with
          | '-' :: rest => (true, rest)
          | '+' :: rest => (false, rest)
          | rest => (false, rest)
        match rest.takeWhile Char.isDigit with
        | [] => none
        | digits =>
            let power : Int := Number.ofDigits digits
            some (some (if negative then -power else power), rest.dropWhile Char.isDigit)
      else some (none, cs)
  | [] => some (none, [])

def number? (cs : List Char) : Option (Number × List Char) := do
  let (negative, rest) := match cs with
    | '-' :: rest => (true, rest)
    | rest => (false, rest)
  let whole := rest.takeWhile Char.isDigit
  let rest := rest.dropWhile Char.isDigit
  if whole = [] ∨ (whole.head? = some '0' ∧ whole.length ≠ 1) then none
  else
    let (fraction, rest) ← fraction? rest
    let (power, rest) ← exponent? rest
    let magnitude := Number.ofDigits (whole ++ fraction)
    let value : Int := if negative then -magnitude else magnitude
    if fraction = [] ∧ power = none ∧ Number.fits value ∧ ¬(negative ∧ magnitude = 0) then
      return (.int value, rest)
    else
      let float ← Binary64.ofDecimal? negative magnitude (power.getD 0 - fraction.length)
      return (.float float, rest)

mutual

/-- A value and what follows it; `fuel` bounds the parts that are read. -/
def value? : Nat → List Char → Option (Json × List Char)
  | 0, _ => none
  | fuel + 1, cs =>
      match skipSpaces cs with
      | 'n' :: 'u' :: 'l' :: 'l' :: rest => some (.null, rest)
      | 't' :: 'r' :: 'u' :: 'e' :: rest => some (.bool true, rest)
      | 'f' :: 'a' :: 'l' :: 's' :: 'e' :: rest => some (.bool false, rest)
      | '"' :: rest => do
          let (text, rest) ← quoted? (rest.length + 1) rest
          return (.string (String.ofList text), rest)
      | '[' :: rest =>
          match skipSpaces rest with
          | ']' :: rest => some (.array [], rest)
          | rest => do
              let (items, rest) ← items? fuel rest
              return (.array items, rest)
      | '{' :: rest =>
          match skipSpaces rest with
          | '}' :: rest => some (.object [], rest)
          | rest => do
              let (entries, rest) ← entries? fuel rest
              return (.object entries, rest)
      | rest => do
          let (value, rest) ← number? rest
          return (.number value, rest)

def items? : Nat → List Char → Option (List Json × List Char)
  | 0, _ => none
  | fuel + 1, cs => do
      let (item, rest) ← value? fuel cs
      match skipSpaces rest with
      | ']' :: rest => return ([item], rest)
      | ',' :: rest =>
          let (items, rest) ← items? fuel rest
          return (item :: items, rest)
      | _ => none

def entries? : Nat → List Char → Option (List (String × Json) × List Char)
  | 0, _ => none
  | fuel + 1, cs =>
      match skipSpaces cs with
      | '"' :: rest => do
          let (key, rest) ← quoted? (rest.length + 1) rest
          match skipSpaces rest with
          | ':' :: rest =>
              let (value, rest) ← value? fuel rest
              match skipSpaces rest with
              | '}' :: rest => return ([(String.ofList key, value)], rest)
              | ',' :: rest =>
                  let (entries, rest) ← entries? fuel rest
                  return ((String.ofList key, value) :: entries, rest)
              | _ => none
          | _ => none
      | _ => none

end

def read? (text : String) : Option Json := do
  let (value, rest) ← value? (text.toList.length + 1) text.toList
  if skipSpaces rest = [] then some value else none

end DeployTarget.Json
