import Workflow.Json.Basic

/-!
Source maps: where the lines of a listing come from. A map lists lines in increasing order, each
with a place in a source; a line in between belongs to the last one before it. A registry holds the
maps of many listings.
-/

namespace Workflow

/-- Where a line of a listing comes from. -/
structure Mapping where
  generated : Nat
  line : Nat
  column : Nat
  /-- Set when the line comes from an imported file. -/
  file : Option String := none
  deriving DecidableEq, Repr

/-- A place in a source file. -/
structure Place where
  file : String
  line : Nat
  column : Nat
  deriving DecidableEq, Repr

def Place.display (p : Place) : String :=
  p.file ++ ":" ++ toString p.line ++ ":" ++ toString p.column

def Place.toJson (p : Place) : Json :=
  .obj [("file", .str p.file), ("line", .nat p.line), ("column", .nat p.column)]

/-- The map of one listing. -/
structure SourceMap where
  /-- Identity of the listing. -/
  generatedFile : String
  /-- Name of the source the listing was made from. -/
  sourceFile : String
  mappings : List Mapping := []
  deriving DecidableEq, Repr, Inhabited

namespace SourceMap

/-- Adds a line that comes from the source itself. -/
def push (m : SourceMap) (generated line column : Nat) : SourceMap :=
  { m with mappings := m.mappings ++ [⟨generated, line, column, none⟩] }

/-- The mapping of a line that comes from a file; the source itself is not named. -/
def mappingFrom (sourceFile file : String) (generated line column : Nat) : Mapping :=
  ⟨generated, line, column, if file = sourceFile then none else some file⟩

def pushFrom (m : SourceMap) (file : String) (generated line column : Nat) : SourceMap :=
  { m with mappings := m.mappings ++ [mappingFrom m.sourceFile file generated line column] }

/-- The place that a line comes from: that of the last mapping which is not behind it. -/
def lookup (m : SourceMap) (generated : Nat) : Option Place :=
  (m.mappings.takeWhile (·.generated ≤ generated)).getLast?.map fun found =>
    ⟨found.file.getD m.sourceFile, found.line, found.column⟩

def generatedLines (m : SourceMap) (line : Nat) : List Nat :=
  (m.mappings.filter (·.line = line)).map (·.generated)

end SourceMap

/-- Source maps by the identity of their listing. -/
abbrev Registry := Table SourceMap

namespace Registry

/-- Adds a map; one with the same identity is replaced. -/
def register (r : Registry) (m : SourceMap) : Registry := r.insert m.generatedFile m

/-- The place that a line of a listing comes from. -/
def resolve (r : Registry) (id : String) (generated : Nat) : Option Place :=
  (r.get? id).bind (·.lookup generated)

end Registry

def Mapping.toJson (m : Mapping) : Json :=
  .obj ([("generated_line", .nat m.generated), ("source_line", .nat m.line),
    ("source_column", .nat m.column)] ++ m.file.toList.map fun file => ("file", .str file))

def Mapping.ofJson? (v : Json) : Option Mapping := do
  let generated ← (v.field? "generated_line").bind Json.nat?
  let line ← (v.field? "source_line").bind Json.nat?
  let column ← (v.field? "source_column").bind Json.nat?
  pure ⟨generated, line, column, (v.given? "file").bind Json.string?⟩

end Workflow
