import Workflow.Diagnostic
import Workflow.Program.OfTree
import Workflow.Unit.Assemble

/-!
What stops a compilation: a source that does not parse, problems that analysis finds, or a listing
that does not assemble.
-/

namespace Workflow

/-- Why a source does not compile. -/
inductive CompileError where
  | syntactic (d : Diagnostic)
  /-- Problems in the order of their places; warnings are among them. -/
  | semantic (ds : List Diagnostic)
  | assembly (e : AssemblyError)

namespace CompileError

def message : CompileError → String
  | syntactic d => d.display
  | semantic ds => toString (ds.filter Diagnostic.isError).length ++ " error(s) found"
  | assembly e => "failed to assemble generated code: " ++ e.message

def diagnostics : CompileError → List Diagnostic
  | syntactic d => [d]
  | semantic ds => ds
  | assembly _ => []

end CompileError

/-- The diagnostic of a derivation that stands for no program. -/
def FormError.toDiagnostic (e : FormError) (file : String) : Diagnostic where
  code := .invalidToken
  file := file
  line := e.span.line
  column := e.span.column
  length := e.span.length
  message := e.message

def Program.ofSource (source name : String) : Except CompileError Program :=
  match Tree.ofSource source with
  | .error e => .error (.syntactic (e.toDiagnostic name source))
  | .ok tree =>
    match Program.ofTree name tree with
    | .error e => .error (.syntactic (e.toDiagnostic name))
    | .ok p => .ok p

/-- Numbers of definitions of a program, without its imports. -/
def Program.stats (p : Program) : UnitStats :=
  p.decls.foldl (fun s d =>
    match d with
    | .model _ => { s with models := s.models + 1 }
    | .agent _ => { s with agents := s.agents + 1 }
    | .flow _ => { s with flows := s.flows + 1 }
    | .handler _ => { s with handlers := s.handlers + 1 }
    | _ => s) {}

def Program.statsOfSource (source : String) : Except CompileError UnitStats := do
  pure (← Program.ofSource source "<stats>").stats

end Workflow
