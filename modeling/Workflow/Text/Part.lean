/-!
Parts of texts: whether a text has a given part, the pieces between its places, and the text with
something else there. Places are found from the left and do not overlap.
-/

namespace Workflow.Text

def startsWith : List Char → List Char → Bool
  | _, [] => true
  | [], _ :: _ => false
  | c :: text, d :: start => c = d && startsWith text start

def hasPart (text part : List Char) : Bool :=
  startsWith text part || match text with
    | [] => false
    | _ :: rest => hasPart rest part

def consFirst (c : Char) : List (List Char) → List (List Char)
  | [] => [[c]]
  | piece :: pieces => (c :: piece) :: pieces

/-- The pieces of a text of which the first characters, `skip` in number, are passed over. -/
def piecesFrom (part : List Char) : Nat → List Char → List (List Char)
  | _, [] => [[]]
  | skip + 1, _ :: rest => piecesFrom part skip rest
  | 0, c :: rest =>
    if startsWith (c :: rest) part then [] :: piecesFrom part (part.length - 1) rest
    else consFirst c (piecesFrom part 0 rest)

def pieces (part text : List Char) : List (List Char) := piecesFrom part 0 text

def replacePart (part new text : List Char) : List Char :=
  List.intercalate new (pieces part text)

end Workflow.Text
