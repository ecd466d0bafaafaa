import Workflow.Analysis.Problem
import Workflow.Compile.Error
import Workflow.Source.Digest
import Workflow.Source.Path

/-!
Imports. Starting from a program, the files that it imports are read and parsed, then the files
that these import, and so on; every file is read once. The programs come out in the order in which
their imports stand, each before the programs it imports itself.
-/

namespace Workflow

abbrev Files := Table String

/-- What has been loaded. -/
structure Loaded where
  /-- Names of files that have been met, whether there is such a file or not. -/
  seen : List String
  imports : List Program := []
  /-- Names and digests of the files that were read. -/
  fingerprints : List (String × String) := []
  diagnostics : List Diagnostic := []

namespace Loaded

def importPaths (p : Program) : List Name :=
  p.decls.filterMap fun d =>
    match d with
    | .importDecl i => some i.path
    | _ => none

def report (l : Loaded) (file : String) (cause : Cause) (span : Span) : Loaded :=
  { l with diagnostics := l.diagnostics ++ [Problem.toDiagnostic ⟨cause, span⟩ file] }

/-- Follows an import of a program. `chain` lists the files that lead to the program, itself included. -/
def enter (files : Files) (go : List String → Loaded → Program → Except CompileError Loaded)
    (chain : List String) (p : Program) (l : Loaded) (path : Name) : Except CompileError Loaded :=
  let name := Path.resolve p.name path.node
  if chain.contains name then
    .ok (l.report p.name (.circularImport (chain ++ [name])) path.span)
  else if l.seen.contains name then .ok l
  else
    let l := { l with seen := name :: l.seen }
    match files.get? name with
    | none => .ok (l.report p.name (.importNotFound path.node) path.span)
    | some source => do
      let l := { l with fingerprints := l.fingerprints ++ [(name, Digest.ofText source)] }
      let imported ← Program.ofSource source name
      go (chain ++ [name]) { l with imports := l.imports ++ [imported] } imported

/-- Loads what a program imports. The number of files bounds the length of a chain. -/
def visit (files : Files) : Nat → List String → Loaded → Program → Except CompileError Loaded
  | 0, _, l, _ => .ok l
  | n + 1, chain, l, p => (importPaths p).foldlM (enter files (visit files n) chain p) l

end Loaded

def Program.load (files : Files) (p : Program) : Except CompileError Loaded :=
  Loaded.visit files (files.length + 1) [p.name] { seen := [p.name] } p

end Workflow
