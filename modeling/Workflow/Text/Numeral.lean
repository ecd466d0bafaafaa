import Workflow.Text.Blank

/-!
Whole numbers in texts such as settings: decimal digits, with a plus sign in front if one likes.
-/

namespace Workflow.Text

def digitsValue (digits : List Char) : Nat := digits.foldl (fun n c => n * 10 + (c.toNat - 48)) 0

/-- The number that a text stands for, if it is one and does not exceed a bound. -/
def unsigned? (bound : Nat) (text : List Char) : Option Nat :=
  let digits := match text with
    | '+' :: rest => rest
    | text => text
  if digits.isEmpty || !digits.all Char.isDigit then none
  else some (digitsValue digits) |>.filter (· ≤ bound)

end Workflow.Text
