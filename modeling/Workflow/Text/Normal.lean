import Workflow.Text.Blank
import Workflow.Text.Case

/-!
The normal form under which two texts are similar: letters, numerals and blanks only, in lower
case, with one space between words.
-/

namespace Workflow.Text

/-- Whether a character is a letter or a numeral. -/
def isAlphanumeric (c : Char) : Bool :=
  alphabetic.contains c || categoryNd.contains c || categoryNl.contains c || categoryNo.contains c

def words : List Char → List (List Char)
  | [] => []
  | c :: rest =>
    if isSpace c then words rest
    else match rest, words rest with
      | d :: _, word :: others => if isSpace d then [c] :: word :: others else (c :: word) :: others
      | _, others => [c] :: others

def normalize (text : String) : String :=
  let kept := text.toList.filter fun c => isAlphanumeric c || isSpace c
  " ".intercalate ((words (lower kept)).map String.ofList)

/-- Whether two texts have the same normal form. -/
def similar (a b : String) : Bool := normalize a == normalize b

end Workflow.Text
