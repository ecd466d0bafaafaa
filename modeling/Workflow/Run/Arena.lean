import Workflow.Run.Hierarchy

/-!
Hierarchies in an arena. The agents of a hierarchy stand in one list and refer to each other by their
places in it. An agent takes its place before the agents below it do, and is told their places once
they have them, so that the list is the tree in preorder. Each agent remembers whether it is closed.
-/

namespace Workflow

/-- An agent in an arena, with the places of its delegates and of its tools. -/
structure ArenaNode where
  spec : AgentSpec
  delegates : List Nat := []
  tools : List Nat := []
  closed : Bool := false

def ArenaNode.children (n : ArenaNode) : List Nat := n.delegates ++ n.tools

/-- The agents of a hierarchy by their places, the top first. -/
abbrev Arena := List ArenaNode

namespace Arena

/-- Adds an agent that is referred to and notes its place, unless it is on the way already or is not
there. -/
def refer (agents : Table AgentSpec) (path : List String) (add : Arena → AgentSpec → Arena × Nat)
    (found : Arena × List Nat) (name : String) : Arena × List Nat :=
  if path.contains name then found
  else match agents.get? name with
    | some spec =>
      let (a, id) := add found.1 spec
      (a, found.2 ++ [id])
    | none => found

/-- Adds an agent with the agents below it, and says which place it has. -/
def add (agents : Table AgentSpec) : Nat → List String → Arena → AgentSpec → Arena × Nat
  | 0, _, a, spec => (a ++ [{ spec }], a.length)
  | depth + 1, path, a, spec =>
    let step := refer agents (spec.name :: path) (add agents depth (spec.name :: path))
    let (b, delegates) := spec.delegate.foldl step (a ++ [{ spec }], [])
    let (b, tools) := spec.uses.foldl step (b, [])
    (b.set a.length { spec, delegates, tools }, a.length)

def build? (agents : Table AgentSpec) (name : String) : Option Arena :=
  (agents.get? name).map fun spec => (add agents agents.length [] [] spec).1

/-- Closes the agent at a place, unless it is closed already: delegates, tools, the agent, and the tool that it
is offered as. -/
def close : Nat → Bool → Arena × List Closing → Nat → Arena × List Closing
  | 0, _, state, _ => state
  | depth + 1, asTool, (a, out), id =>
    match a[id]? with
    | none => (a, out)
    | some n =>
      if n.closed then (a, out)
      else
        let state := n.delegates.foldl (close depth false) (a.set id { n with closed := true }, out)
        let (a, out) := n.tools.foldl (close depth true) state
        (a, out ++ ⟨n.spec.name, false⟩ :: if asTool then [⟨n.spec.name, true⟩] else [])

def teardown (a : Arena) : List Closing × Arena :=
  let (a, out) := close a.length false (a, []) 0
  (out, a)

def isClosed (a : Arena) : Bool := a.head?.any (·.closed)

end Arena

namespace Hierarchy

def places : Nat → List Hierarchy → List Nat
  | _, [] => []
  | first, h :: rest => first :: places (first + h.size) rest

mutual

/-- The agents of a tree in preorder, from a place on. -/
def layout (first : Nat) : Hierarchy → Arena
  | node spec delegates tools =>
    { spec
      delegates := places (first + 1) delegates
      tools := places (first + 1 + sizes delegates) tools } ::
      (layouts (first + 1) delegates ++ layouts (first + 1 + sizes delegates) tools)

/-- The agents of some trees, one tree after the other. -/
def layouts (first : Nat) : List Hierarchy → Arena
  | [] => []
  | h :: rest => h.layout first ++ layouts (first + h.size) rest

end

end Hierarchy

/-- A hierarchy in use. -/
structure LiveHierarchy where
  tree : Hierarchy
  nodes : Arena := tree.layout 0

namespace LiveHierarchy

def closed (h : LiveHierarchy) : Bool := h.nodes.isClosed

/-- Tears a hierarchy down; the second time nothing is left to close. -/
def teardown (h : LiveHierarchy) : List Closing × LiveHierarchy :=
  let (out, nodes) := h.nodes.teardown
  (out, { h with nodes })

end LiveHierarchy

end Workflow
