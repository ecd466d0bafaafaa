import Workflow.Analysis.Problem
import Workflow.Program.Basic

/-!
The definitions of a program and its imports, by kind and name. Definitions stand in the order of
the text; of two with one kind and name only the first counts.
-/

namespace Workflow

/-- The name under which the agent without a name is known. -/
def defaultAgent : String := "default"

/-- A definition with a name. -/
structure Definition where
  kind : DefKind
  name : String
  /-- The file that holds it. -/
  file : String
  /-- The place of its name, or of all of it where it has none. -/
  place : Span
  decl : Decl

def AgentDef.effectiveName (a : AgentDef) : String :=
  match a.name with
  | some name => name.node
  | none => defaultAgent

def AgentDef.place (a : AgentDef) : Span :=
  match a.name with
  | some name => name.span
  | none => a.span

def Decl.named? : Decl → Option (DefKind × String × Span)
  | importDecl _ | handler _ => none
  | model d => some (.model, d.name.node, d.name.span)
  | schema d => some (.schema, d.name.node, d.name.span)
  | tool d => some (.tool, d.name.node, d.name.span)
  | retry d => some (.retry, d.name.node, d.name.span)
  | timeout d => some (.timeout, d.name.node, d.name.span)
  | guardrail d => some (.guardrail, d.name.node, d.name.span)
  | prompt d => some (.prompt, d.name.node, d.name.span)
  | agent d => some (.agent, d.effectiveName, d.place)
  | flow d => some (.flow, d.name.node, d.name.span)

abbrev Definitions := List Definition

namespace Definitions

def find? (defs : Definitions) (kind : DefKind) (name : String) : Option Definition :=
  List.find? (fun d => d.kind = kind && d.name = name) defs

def contains (defs : Definitions) (kind : DefKind) (name : String) : Bool :=
  (defs.find? kind name).isSome

def names (defs : Definitions) (kind : DefKind) : List String :=
  ((List.filter (fun d => d.kind = kind) defs).map (·.name)).mergeSort (fun a b => decide (a ≤ b))

def agents (defs : Definitions) : List (String × AgentDef) :=
  defs.filterMap fun d =>
    match d.decl with
    | .agent a => some (d.name, a)
    | _ => none

def flowArity? (defs : Definitions) (name : String) : Option Nat :=
  match defs.find? .flow name with
  | some ⟨_, _, _, _, .flow f⟩ => some f.params.length
  | _ => none

end Definitions

def Definitions.declare (file : String) (state : Definitions × List Problem) (d : Decl) : Definitions × List Problem :=
  let (defs, problems) := state
  match d.named? with
  | none => state
  | some (kind, name, place) =>
    match defs.find? kind name with
    | none => (defs ++ [⟨kind, name, file, place, d⟩], problems)
    | some first =>
      let firstPlace := first.file ++ ":" ++ toString first.place.line
      (defs, problems ++ [⟨.duplicateDefinition kind name firstPlace, place⟩])

/-- Adds the definitions of a program; problems are told with the name of the file. -/
def Definitions.collect (state : Definitions × List (String × Problem)) (p : Program) :
    Definitions × List (String × Problem) :=
  let (defs, problems) := p.decls.foldl (Definitions.declare p.name) (state.1, [])
  (defs, state.2 ++ problems.map fun q => (p.name, q))

def Definitions.ofPrograms (programs : List Program) : Definitions × List (String × Problem) :=
  programs.foldl Definitions.collect ([], [])

end Workflow
