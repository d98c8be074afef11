import DeployTarget.Text.Blank

/-!
# Host lists

Hosts are written as one text with commas or as a list of texts.  Either way every
text is cut at its commas, the pieces lose the blanks around them, and empty pieces
count for nothing.
-/

namespace DeployTarget

/-- Hosts as they are written. -/
inductive HostList where
  /-- One text, the hosts separated by commas. -/
  | joined (text : String)
  /-- A list of texts, each with one host or several. -/
  | listed (texts : List String)
deriving DecidableEq, Repr

namespace HostList

def separator : Char :=
  ','

def splitText (text : String) : List String :=
  (((text.toList.splitOn separator).map Text.trimmed).filter (· ≠ [])).map String.ofList

def splitAll (texts : List String) : List String :=
  texts.flatMap splitText

def split : HostList → List String
  | .joined text => splitAll [text]
  | .listed texts => splitAll texts

end HostList

end DeployTarget
