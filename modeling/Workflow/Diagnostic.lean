import Workflow.Json.Basic
import Workflow.Grammar.Parse
import Workflow.Text.Lines

/-!
Diagnostics: what is wrong with a source, and where. Each has a code that stands for the kind of
problem and decides how serious it is. `render` shows the offending line with a mark under it.
-/

namespace Workflow

/-- How serious a diagnostic is. -/
inductive Severity where
  | error
  | warning
  deriving DecidableEq, Repr

def Severity.name : Severity → String
  | error => "error"
  | warning => "warning"

/-- Kinds of problems. -/
inductive Code where
  | undefinedReference
  | undefinedVariable
  | duplicateDefinition
  | typeMismatch
  | importNotFound
  | circularImport
  | invalidToken
  | indentation
  | guardAction
  | missingProperty
  | circularAgent
  | guardrailPattern
  | misplacedStatement
  | mixedComposition
  deriving DecidableEq, Repr

namespace Code

def id : Code → String
  | undefinedReference => "E0001"
  | undefinedVariable => "E0002"
  | duplicateDefinition => "E0003"
  | typeMismatch => "E0004"
  | importNotFound => "E0005"
  | circularImport => "E0006"
  | invalidToken => "E0007"
  | indentation => "E0008"
  | guardAction => "E0009"
  | missingProperty => "E0010"
  | circularAgent => "E0011"
  | guardrailPattern => "E0012"
  | misplacedStatement => "E0013"
  | mixedComposition => "W0002"

def all : List Code := [undefinedReference, undefinedVariable, duplicateDefinition, typeMismatch,
  importNotFound, circularImport, invalidToken, indentation, guardAction, missingProperty,
  circularAgent, guardrailPattern, misplacedStatement, mixedComposition]

def ofId? (id : String) : Option Code := all.find? (·.id = id)

def severity : Code → Severity
  | mixedComposition => .warning
  | _ => .error

def title : Code → String
  | undefinedReference => "undefined reference"
  | undefinedVariable => "variable used before definition"
  | duplicateDefinition => "duplicate definition"
  | typeMismatch => "type mismatch"
  | importNotFound => "import not found"
  | circularImport => "circular import"
  | invalidToken => "invalid token"
  | indentation => "indentation mismatch"
  | guardAction => "invalid guardrail action"
  | missingProperty => "missing required property"
  | circularAgent => "circular agent reference"
  | guardrailPattern => "invalid guardrail pattern"
  | misplacedStatement => "statement not allowed here"
  | mixedComposition => "agent has both delegate and use"

end Code

/-- A message about a place in a file. -/
structure Diagnostic where
  code : Code
  file : String
  line : Nat
  column : Nat
  /-- Width of the offending stretch. -/
  length : Nat
  message : String
  help : Option String := none
  deriving DecidableEq, Repr

namespace Diagnostic

def severity (d : Diagnostic) : Severity := d.code.severity

def isError (d : Diagnostic) : Bool := d.severity = .error

def place (d : Diagnostic) : String :=
  d.file ++ ":" ++ toString d.line ++ ":" ++ toString d.column

/-- What kind of problem it is, and the message. -/
def headline (d : Diagnostic) : String :=
  d.severity.name ++ "[" ++ d.code.id ++ "]: " ++ d.message

def display (d : Diagnostic) : String := d.place ++ ": " ++ d.headline

def times (c : Char) (n : Nat) : String := String.ofList (List.replicate n c)

def shownLine? (source : String) (line : Nat) : Option (List Char) :=
  ((Text.lines source.toList)[line - 1]?).map (Text.trimEnd (· = '\r'))

/-- Text with the offending line of the source, marked, if there is such a line. -/
def render (d : Diagnostic) (source : String) : String :=
  let gutter := times ' ' (toString d.line).length
  let snippet := match shownLine? source d.line with
    | none => ""
    | some text =>
      let lead := d.column - 1
      let available := text.length - lead
      let marks := min (max d.length 1) (max available 1)
      gutter ++ " |\n" ++ toString d.line ++ " | " ++ String.ofList text ++ "\n"
        ++ gutter ++ " | " ++ times ' ' lead ++ times '^' marks ++ "\n"
  let help := match d.help with
    | none => ""
    | some help => gutter ++ " = help: " ++ help ++ "\n"
  d.headline ++ "\n" ++ gutter ++ "--> " ++ d.place ++ "\n" ++ snippet ++ help

def toJson (d : Diagnostic) : Json :=
  .obj ([("severity", .str d.severity.name), ("code", .str d.code.id), ("file", .str d.file),
    ("line", .nat d.line), ("column", .nat d.column), ("length", .nat d.length),
    ("message", .str d.message)] ++ d.help.toList.map fun help => ("help", .str help))

/-- Order by place, errors before warnings at the same place. -/
def before (a b : Diagnostic) : Bool :=
  if a.line ≠ b.line then a.line < b.line
  else if a.column ≠ b.column then a.column < b.column
  else a.severity = .error || b.severity = .warning

/-- Sorts by place; diagnostics that the order does not tell apart stay as they are. -/
def sort (ds : List Diagnostic) : List Diagnostic := ds.mergeSort before

end Diagnostic

def ParseError.toDiagnostic (e : ParseError) (file source : String) : Diagnostic where
  code := match e with
    | .layout _ => .indentation
    | _ => .invalidToken
  file := file
  line := e.span.line
  column := e.span.column
  length := match Text.slice? source.toList e.span.start e.span.stop with
    | some text => max text.length 1
    | none => 1
  message := e.message

end Workflow
