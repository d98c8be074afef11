import DeployTarget.Expression.Template

/-!
# Replacing references in place

The references of a text are replaced one after the other, left to right.  After each
the search goes on behind the text that took its place, so that text is never searched.
-/

namespace DeployTarget.Substitution

/-- The position of the first `<+` at or behind a position. -/
def opening? (text : List Char) (start : Nat) : Option Nat :=
  (positionOf? (text.drop start)).map (start + ·)
where
  positionOf? : List Char → Option Nat
    | '<' :: '+' :: _ => some 0
    | _ :: rest => (positionOf? rest).map (· + 1)
    | [] => none

/-- The position of the first `>` at or behind a position. -/
def closing? (text : List Char) (start : Nat) : Option Nat :=
  ((text.drop start).findIdx? (· == '>')).map (start + ·)

/-- The text with what lies from one position up to another replaced. -/
def splice (text : List Char) (first last : Nat) (value : List Char) : List Char :=
  text.take first ++ value ++ text.drop last

/-- Replaces the references at or behind a position; `fuel` bounds their number.  There
is no text if a reference has none.  For a reference that is not closed it gives the
number of bytes in front of it. -/
def substituteFrom (value? : List Char → Option (List Char)) :
    Nat → List Char → Nat → Except Nat (Option (List Char))
  | 0, text, _ => .ok (some text)
  | fuel + 1, text, start =>
      match opening? text start with
      | none => .ok (some text)
      | some opening =>
          match closing? text opening with
          | none => .error (Template.byteLength (text.take opening))
          | some closing =>
              match value? ((text.take closing).drop (opening + 2)) with
              | none => .ok none
              | some value =>
                  substituteFrom value? fuel (splice text opening (closing + 1) value)
                    (opening + value.length)

/-- Replaces all references of a text by what they stand for. -/
def substitute (value? : List Char → Option (List Char)) (text : List Char) :
    Except Nat (Option (List Char)) :=
  substituteFrom value? text.length text 0

end DeployTarget.Substitution
