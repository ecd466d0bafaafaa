import Workflow.Analysis.Check
import Workflow.Graph

/-!
Analysis of a program together with its imports. It collects the definitions, checks every
declaration, and looks for agents that lead back to themselves. Nothing stops it: all problems are
reported, in the order of their places.
-/

namespace Workflow

/-- What analysis found out. -/
structure Analysis where
  definitions : Definitions
  diagnostics : List Diagnostic

namespace Analysis

def hasErrors (a : Analysis) : Bool := a.diagnostics.any Diagnostic.isError

def startVariables : Decl → Scope
  | .handler h => if h.event.node = .start then assignedBy h.body else []
  | _ => []

/-- Variables that handlers of the start leave behind for all flows and handlers. -/
def globals (programs : List Program) : Scope :=
  programs.foldl (fun scope p => p.decls.foldl (fun scope d => scope.union (startVariables d)) scope) []

def composed (a : AgentDef) : List String :=
  ((a.delegate.getD []) ++ (a.uses.getD [])).map (·.node)

/-- The graph of agents: an edge leads from an agent to each defined agent that it names. -/
def agentGraph (defs : Definitions) : Graph :=
  .ofEdges <| defs.agents.flatMap fun (name, a) =>
    ((composed a).filter (defs.contains .agent)).map fun target => (name, target)

/-- The problems of agents that lead back to themselves, each in the file of its first agent. -/
def cycleProblems (defs : Definitions) : List (String × Problem) :=
  ((agentGraph defs).cycles (defs.agents.map (·.1))).filterMap fun cycle => do
    let first ← cycle.head?
    let d ← defs.find? .agent first
    pure (d.file, ⟨.circularAgent cycle, d.place⟩)

/-- Every problem of some programs, with the name of its file. -/
def problems (programs : List Program) : List (String × Problem) :=
  let (defs, duplicates) := Definitions.ofPrograms programs
  let globals := globals programs
  duplicates ++ programs.flatMap (fun p => (p.decls.flatMap (checkDecl defs globals)).map fun q => (p.name, q))
    ++ cycleProblems defs

def analyze (root : Program) (imports : List Program) : Analysis where
  definitions := (Definitions.ofPrograms (root :: imports)).1
  diagnostics := Diagnostic.sort ((problems (root :: imports)).map fun (file, p) => p.toDiagnostic file)

end Analysis

end Workflow
