/-!
Lines of a text. A line ends in a line feed, which may have a carriage return in front of it; the
text behind the last line feed is a line only if there is some.
-/

namespace Workflow.Text

/-- The pieces of a text between line feeds; there is always one more than there are line feeds. -/
def splitFeeds : List Char → List (List Char)
  | [] => [[]]
  | '\n' :: rest => [] :: splitFeeds rest
  | c :: rest =>
    match splitFeeds rest with
    | [] => [[c]]
    | line :: lines => (c :: line) :: lines

def trimEnd (test : Char → Bool) (text : List Char) : List Char :=
  (text.reverse.dropWhile test).reverse

def dropReturn (line : List Char) : List Char :=
  match line.getLast? with
  | some '\r' => line.dropLast
  | _ => line

def lines (text : List Char) : List (List Char) :=
  let pieces := splitFeeds text
  let kept := if pieces.getLast? = some [] then pieces.dropLast else pieces
  match kept.getLast? with
  | none => []
  | some last =>
    let broken := kept.dropLast.map dropReturn
    -- the last piece is a broken line only when a line feed follows it
    broken ++ [if kept.length < pieces.length then dropReturn last else last]

end Workflow.Text
