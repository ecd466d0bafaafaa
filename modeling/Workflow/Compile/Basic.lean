import Workflow.Listing.OfProgram
import Workflow.Source.Imports

/-!
Compilation of a source: parse, load the imports, analyse, lower to a listing, assemble. The first
stage that fails decides.
-/

namespace Workflow

/-- Settings of the compiler. -/
structure CompilerConfig where
  /-- How many units are kept. -/
  cacheCapacity : Nat := 64
  /-- Whether listings name the places of definitions. -/
  sourceComments : Bool := true
  deriving DecidableEq, Repr

def CompilerConfig.toJson (c : CompilerConfig) : Json :=
  .obj [("cache_capacity", .nat c.cacheCapacity), ("source_comments", .bool c.sourceComments)]

/-- Identity of the unit of a file: its name and the start of a digest. -/
def generatedFileId (name hash : String) : String :=
  "<weave:" ++ name ++ ":" ++ String.ofList (hash.toList.take 8) ++ ">"

/-- Diagnostics of the root file first, each file in the order of places. -/
def orderDiagnostics (root : String) (ds : List Diagnostic) : List Diagnostic :=
  let sorted := Diagnostic.sort ds
  sorted.filter (·.file = root) ++ sorted.filter (·.file ≠ root)

def validate (files : Files) (source name : String) : List Diagnostic :=
  match Program.ofSource source name with
  | .error e => e.diagnostics
  | .ok root =>
    match root.load files with
    | .error e => e.diagnostics
    | .ok loaded =>
      orderDiagnostics name (loaded.diagnostics ++ (Analysis.analyze root loaded.imports).diagnostics)

def lowered (config : CompilerConfig) (root : Program) (imports : List Program) : List Lower.Placed :=
  Lower.lines config.sourceComments (Definitions.ofPrograms (root :: imports)).1 (root :: imports)

/-- A unit together with what has to stay the same for it to stay valid. -/
structure Compiled where
  unit : CompiledUnit
  /-- Name of the file it was compiled from. -/
  name : String
  /-- The paths that the file imports, as written. -/
  importPaths : List String
  /-- Names and digests of all files that were imported. -/
  imports : List (String × String)

def compile (config : CompilerConfig) (files : Files) (source name : String) : Except CompileError Compiled := do
  let root ← Program.ofSource source name
  let loaded ← root.load files
  let analysis := Analysis.analyze root loaded.imports
  let diagnostics := loaded.diagnostics ++ analysis.diagnostics
  if diagnostics.any Diagnostic.isError then
    throw (.semantic (orderDiagnostics name diagnostics))
  let hash := Digest.ofText source
  let lines := lowered config root loaded.imports
  let map := SourceMap.ofPlaced (generatedFileId name hash) name lines
  match CompiledUnit.assemble hash (Listing.ofPlaced lines) map with
  | .error e => throw (.assembly e)
  | .ok unit =>
    pure ⟨unit, name, (Loaded.importPaths root).map (·.node), loaded.fingerprints⟩

end Workflow
