import DeployTarget.Text.Hidden

/-!
# Texts shown in messages

A message shows a text between quotes.  Quotes, backslashes and the usual controls
are written with a backslash, and the other characters without a printed form by
their code in braces.
-/

namespace DeployTarget.Text

def shownCharacter (c : Char) : List Char :=
  if c = '"' then ['\\', '"']
  else if c = '\\' then ['\\', '\\']
  else if c = '\n' then ['\\', 'n']
  else if c = '\r' then ['\\', 'r']
  else if c = '\t' then ['\\', 't']
  else if c.toNat = 0 then ['\\', '0']
  else if isHidden c then '\\' :: 'u' :: '\x7b' :: Nat.toDigits 16 c.toNat ++ ['\x7d']
  else [c]

def shown (text : String) : String :=
  String.ofList ('"' :: text.toList.flatMap shownCharacter ++ ['"'])

end DeployTarget.Text
