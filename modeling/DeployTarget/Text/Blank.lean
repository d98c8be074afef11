/-!
# White space and trimming

White space is the Unicode property `White_Space`.  Trimming removes the
longest blank runs at both ends of a text, so a trimmed text is empty or begins
and ends with a character that is not blank.
-/

namespace DeployTarget.Text

/-- The characters with the Unicode property `White_Space`. -/
def isBlank (c : Char) : Bool :=
  let code := c.toNat
  (9 ≤ code && code ≤ 13) || code == 0x20 || code == 0x85 || code == 0xA0 ||
    code == 0x1680 || (0x2000 ≤ code && code ≤ 0x200A) || code == 0x2028 ||
    code == 0x2029 || code == 0x202F || code == 0x205F || code == 0x3000

def trimEnd (characters : List Char) : List Char :=
  (characters.reverse.dropWhile isBlank).reverse

def trimmed (characters : List Char) : List Char :=
  trimEnd (characters.dropWhile isBlank)

def trim (text : String) : String :=
  String.ofList (trimmed text.toList)

@[simp]
theorem toList_trim (text : String) : (trim text).toList = trimmed text.toList := by
  simp [trim]

end DeployTarget.Text
