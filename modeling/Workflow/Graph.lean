/-!
Directed graphs of names, and the cycles that a depth-first search meets. A cycle is found when an
edge leads back to a name on the path that is being explored; it is reported as the part of the
path from that name on, closed with the name again.
-/

namespace Workflow

/-- A graph: its edges, in the order in which they were added. -/
structure Graph where
  edges : List (String × String) := []
  deriving DecidableEq, Repr

namespace Graph

/-- Adds an edge; an edge that is there stays where it is. -/
def addEdge (g : Graph) (edge : String × String) : Graph :=
  if g.edges.contains edge then g else ⟨g.edges ++ [edge]⟩

def ofEdges (edges : List (String × String)) : Graph := edges.foldl addEdge {}

def next (g : Graph) (name : String) : List String :=
  (g.edges.filter (·.1 = name)).map (·.2)

/-- What a search knows: the names it has left behind, and the cycles it has met. -/
structure Search where
  done : List String := []
  cycles : List (List String) := []

/-- The cycle that an edge back to a name closes. The path has its last name first. -/
def closeCycle (path : List String) (name : String) : List String :=
  (path.reverse.dropWhile (· ≠ name)) ++ [name]

/-- Explores a name behind a path, whose last name comes first. The number of edges bounds the length of a path. -/
def explore (g : Graph) : Nat → List String → Search → String → Search
  | 0, _, s, _ => s
  | n + 1, path, s, name =>
    let path := name :: path
    let s := (g.next name).foldl (fun s next =>
      if path.contains next then { s with cycles := s.cycles ++ [closeCycle path next] }
      else if s.done.contains next then s
      else g.explore n path s next) s
    { s with done := name :: s.done }

/-- All cycles that a search from some names meets, in the order in which it meets them. -/
def cycles (g : Graph) (roots : List String) : List (List String) :=
  (roots.foldl (fun s root =>
    if s.done.contains root then s else g.explore (g.edges.length + 1) [] s root)
    ({} : Search)).cycles

end Graph

end Workflow
