import Workflow.Model.Request

/-!
Hierarchies of agents. Before an agent runs, its delegates and the agents it uses as tools are laid out as a
tree, without references that lead nowhere or back. A hierarchy is torn down from the leaves to the root.
-/

namespace Workflow

/-- An agent with the agents below it. -/
inductive Hierarchy where
  | node (spec : AgentSpec) (delegates tools : List Hierarchy)

/-- What is closed in a teardown: an agent, or the tool that it was offered as. -/
structure Closing where
  agent : String
  asTool : Bool
  deriving DecidableEq, Repr

namespace Hierarchy

def spec : Hierarchy → AgentSpec
  | node spec _ _ => spec

def name (h : Hierarchy) : String := h.spec.name

/-- The agents that may take over from the top. -/
def delegates : Hierarchy → List Hierarchy
  | node _ delegates _ => delegates

def tools : Hierarchy → List Hierarchy
  | node _ _ tools => tools

/-- The tree below an agent. The path names the agents on the way; the number of agents bounds the depth. -/
def unfold (agents : Table AgentSpec) : Nat → List String → AgentSpec → Hierarchy
  | 0, _, spec => node spec [] []
  | depth + 1, path, spec =>
    let path := spec.name :: path
    let children (names : List String) : List Hierarchy :=
      names.filterMap fun name =>
        if path.contains name then none else (agents.get? name).map (unfold agents depth path)
    node spec (children spec.delegate) (children spec.uses)

def build? (agents : Table AgentSpec) (name : String) : Option Hierarchy :=
  (agents.get? name).map (unfold agents agents.length [])

mutual

def size : Hierarchy → Nat
  | node _ delegates tools => 1 + sizes delegates + sizes tools

def sizes : List Hierarchy → Nat
  | [] => 0
  | h :: rest => h.size + sizes rest

end

mutual

/-- What is closed, in order: delegates, then tools, then the agent itself, and last the tool that
it is offered as. -/
def closings (asTool : Bool) : Hierarchy → List Closing
  | node spec delegates tools =>
    closingsOf false delegates ++ closingsOf true tools ++ ⟨spec.name, false⟩ ::
      if asTool then [⟨spec.name, true⟩] else []

def closingsOf (asTool : Bool) : List Hierarchy → List Closing
  | [] => []
  | h :: rest => h.closings asTool ++ closingsOf asTool rest

end

def delegate? (h : Hierarchy) (name : String) : Option Hierarchy := h.delegates.find? (·.name = name)

def tool? (h : Hierarchy) (name : String) : Option Hierarchy := h.tools.find? (·.name = name)

def describe (spec : AgentSpec) : String :=
  spec.description.getD ("agent following prompt " ++ spec.instruction)

/-- The tools that a model is offered on behalf of the top. -/
def descriptors (known : Table ToolSpec) (h : Hierarchy) : List ToolDescriptor :=
  (h.delegates.map fun d => ⟨d.name, describe d.spec, .transfer⟩)
  ++ (h.tools.map fun t => ⟨t.name, describe t.spec, .agent⟩)
  ++ h.spec.tools.map fun name =>
    ⟨name, match known.get? name with
      | some t => t.kind.name ++ " tool " ++ t.target
      | none => "", .external⟩

end Hierarchy

end Workflow
