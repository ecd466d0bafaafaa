/-!
Edit distance, and the name that was probably meant. The distance of two texts is the least number
of insertions, deletions and replacements of characters that make one of the other. It is computed
row by row: a row holds the distances of one text to all beginnings of the other.
-/

namespace Workflow.Text

/-- Goes through a row. `left` is the entry just computed, `corner` the one above it on the left. -/
def distanceCells (c : Char) (left corner : Nat) : List (Char × Nat) → List Nat
  | [] => []
  | (d, above) :: rest =>
    let cell := min (min (left + 1) (above + 1)) (corner + if c = d then 0 else 1)
    cell :: distanceCells c cell above rest

def distanceRow (other : List Char) (row : List Nat) (c : Char) : List Nat :=
  match row with
  | [] => []
  | corner :: above => (corner + 1) :: distanceCells c (corner + 1) corner (other.zip above)

def distance (a b : List Char) : Nat :=
  ((a.foldl (distanceRow b) (List.range (b.length + 1))).getLast?).getD 0

/-- The first of the nearest candidates to a name, if it is near enough: at most a third of the characters
differ, or two. -/
def suggestion? (name : String) (candidates : List String) : Option String :=
  let limit := max (name.length / 3) 2
  let near := (candidates.map fun c => (distance name.toList c.toList, c)).filter (·.1 ≤ limit)
  let best := near.foldl (fun best c =>
    match best with
    | some b => if c.1 < b.1 then some c else some b
    | none => some c) (none : Option (Nat × String))
  best.map (·.2)

end Workflow.Text
