/-!
# Places in the text of a document

A cursor is what remains of a text, with the place where it begins.  Reading moves it
by one character, or over a line break.  Blanks and line breaks inside a scalar are
folded: a single break becomes a blank, and of several breaks the first is dropped.
-/

namespace DeployTarget.Yaml

def isWhite (c : Char) : Bool :=
  c == ' ' || c == '\t'

def isBreak (c : Char) : Bool :=
  c == '\n' || c == '\r' || c == '\u0085' || c == '\u2028' || c == '\u2029'

/-- A character of the name of an anchor, a directive or a tag handle. -/
def isNameCharacter (c : Char) : Bool :=
  c.isAlphanum || c == '-' || c == '_'

/-- Whether a text ends, or goes on with a blank or a line break. -/
def endsWord : List Char → Bool
  | [] => true
  | c :: _ => isWhite c || isBreak c

/-- What remains of a text, and where it begins. -/
structure Cursor where
  rest : List Char
  index : Nat
  line : Nat
  column : Nat
deriving Repr, Inhabited

namespace Cursor

def start (text : List Char) : Cursor :=
  ⟨text, 0, 0, 0⟩

def head? (place : Cursor) : Option Char :=
  place.rest.head?

def next (place : Cursor) : Cursor :=
  match place.rest with
  | [] => place
  | _ :: rest => ⟨rest, place.index + 1, place.line, place.column + 1⟩

def skip (place : Cursor) (count : Nat) : Cursor :=
  ⟨place.rest.drop count, place.index + count, place.line, place.column + count⟩

/-- Moves over a line break; a carriage return and a line feed are one. -/
def nextLine (place : Cursor) : Cursor :=
  match place.rest with
  | '\r' :: '\n' :: rest => ⟨rest, place.index + 2, place.line + 1, 0⟩
  | _ :: rest => ⟨rest, place.index + 1, place.line + 1, 0⟩
  | [] => place

def breakCharacter : List Char → Char
  | '\u2028' :: _ => '\u2028'
  | '\u2029' :: _ => '\u2029'
  | _ => '\n'

def takeWhile (place : Cursor) (test : Char → Bool) : List Char × Cursor :=
  let taken := place.rest.takeWhile test
  (taken, place.skip taken.length)

def dropWhile (place : Cursor) (test : Char → Bool) : Cursor :=
  (place.takeWhile test).2

def atDocumentMark (place : Cursor) : Bool :=
  place.column == 0 &&
    match place.rest with
    | '-' :: '-' :: '-' :: rest => endsWord rest
    | '.' :: '.' :: '.' :: rest => endsWord rest
    | _ => false

end Cursor

/-- Blanks and line breaks between the words of a scalar. -/
structure Gap where
  blanks : List Char
  /-- The first line break, if there is one that counts. -/
  first : List Char
  others : List Char
  broken : Bool
deriving Repr, Inhabited

namespace Gap

def none : Gap :=
  ⟨[], [], [], false⟩

def escaped : Gap :=
  ⟨[], [], [], true⟩

/-- The gap with one more blank; blanks at the beginning of a line count for nothing. -/
def addBlank (gap : Gap) (c : Char) : Gap :=
  if gap.broken then gap else { gap with blanks := gap.blanks ++ [c] }

def addBreak (gap : Gap) (c : Char) : Gap :=
  if gap.broken then { gap with others := gap.others ++ [c] }
  else ⟨[], [c], [], true⟩

def folded (gap : Gap) : List Char :=
  if gap.broken then
    if gap.first = ['\n'] then (if gap.others = [] then [' '] else gap.others)
    else gap.first ++ gap.others
  else gap.blanks

/-- Moves over blanks and line breaks, adding them to a gap.  A tab at the beginning
of a line may not stand before the given column.  `fuel` bounds the characters. -/
def read? (column : Int) : Nat → Gap → Cursor → Option (Gap × Cursor)
  | 0, _, _ => Option.none
  | fuel + 1, gap, place =>
      match place.rest with
      | [] => some (gap, place)
      | c :: _ =>
          if isWhite c then
            if gap.broken ∧ place.column < column ∧ c = '\t' then Option.none
            else read? column fuel (gap.addBlank c) place.next
          else if isBreak c then
            read? column fuel (gap.addBreak (Cursor.breakCharacter place.rest))
              place.nextLine
          else some (gap, place)

end Gap

end DeployTarget.Yaml
