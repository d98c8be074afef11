/-!
# Texts with references

What a text with references means: it is cut, left to right, at each `<+` and at the
first `>` behind it.  What lies between is a reference; all else stands for itself.  A
reference that is opened and never closed spoils the text from there on.
-/

namespace DeployTarget.Template

/-- A piece of a text. -/
inductive Piece where
  | character (c : Char)
  /-- A reference, by the characters between its marks. -/
  | reference (inner : List Char)
  /-- The opening of a reference that is not closed. -/
  | unclosed
deriving DecidableEq, Repr

mutual

def pieces : List Char → List Piece
  | '<' :: '+' :: rest => referencePieces [] rest
  | c :: rest => .character c :: pieces rest
  | [] => []

/-- The pieces of a text inside a reference whose characters so far are given, last
one first. -/
def referencePieces (inner : List Char) : List Char → List Piece
  | '>' :: rest => .reference inner.reverse :: pieces rest
  | c :: rest => referencePieces (c :: inner) rest
  | [] => [.unclosed]

end

def byteLength (text : List Char) : Nat :=
  text.foldl (fun size c => size + c.utf8Size) 0

/-- Writes the pieces with the texts of their references, behind a number of bytes
that are written already.  There is no text if a reference has none; what comes first
counts, and for an unclosed reference that is the number of bytes in front of it. -/
def fill (value? : List Char → Option (List Char)) :
    Nat → List Piece → Except Nat (Option (List Char))
  | _, [] => .ok (some [])
  | written, .character c :: rest => do
      let tail ← fill value? (written + c.utf8Size) rest
      return tail.map (c :: ·)
  | written, .reference inner :: rest =>
      match value? inner with
      | some text => do
          let tail ← fill value? (written + byteLength text) rest
          return tail.map (text ++ ·)
      | none => .ok none
  | written, .unclosed :: _ => .error written

end DeployTarget.Template
