import Workflow.Text.Lines

/-!
White space: the characters with the Unicode property `White_Space`, and trimming.
-/

namespace Workflow.Text

def isSpace (c : Char) : Bool :=
  let n := c.toNat
  (9 ≤ n && n ≤ 13) || n == 32 || n == 0x85 || n == 0xa0 || n == 0x1680
    || (0x2000 ≤ n && n ≤ 0x200a) || n == 0x2028 || n == 0x2029 || n == 0x202f || n == 0x205f
    || n == 0x3000

def trim (text : List Char) : List Char := trimEnd isSpace (text.dropWhile isSpace)

/-- Whether a text has nothing but white space. -/
def isBlank (text : List Char) : Bool := text.all isSpace

end Workflow.Text
