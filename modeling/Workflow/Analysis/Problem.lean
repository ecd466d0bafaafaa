import Workflow.Diagnostic
import Workflow.Pattern.Basic
import Workflow.Program.Kinds
import Workflow.Text.Distance

/-!
What can be wrong with a program that parses. A problem knows its cause; its code, its wording and
the help that goes with it are functions of the cause.
-/

namespace Workflow

/-- Kinds of definitions that have a name. -/
inductive DefKind where
  | model
  | schema
  | tool
  | retry
  | timeout
  | guardrail
  | prompt
  | agent
  | flow
  deriving DecidableEq, Repr

namespace DefKind

def name : DefKind → String
  | model => "model"
  | schema => "schema"
  | tool => "tool"
  | retry => "retry policy"
  | timeout => "timeout policy"
  | guardrail => "guardrail"
  | prompt => "prompt"
  | agent => "agent"
  | flow => "flow"

/-- How several definitions of a kind are named. -/
def plural : DefKind → String
  | model => "models"
  | schema => "schemas"
  | tool => "tools"
  | retry => "retry policies"
  | timeout => "timeout policies"
  | guardrail => "guardrails"
  | prompt => "prompts"
  | agent => "agents"
  | flow => "flows"

def all : List DefKind := [model, schema, tool, retry, timeout, guardrail, prompt, agent, flow]

end DefKind

/-- The cause of a problem. -/
inductive Cause where
  /-- A name that nothing of that kind has; `candidates` are the names there are. -/
  | undefined (kind : DefKind) (name : String) (candidates : List String)
  | undefinedVariable (name : String)
  /-- A second definition; `first` is the place of the first one. -/
  | duplicateDefinition (kind : DefKind) (name first : String)
  | duplicateField (name : String)
  | duplicateParameter (name : String)
  | duplicateFailure
  | noAttempts (policy : String)
  | noTime (policy : String)
  | modelProperty (key : String)
  /-- A field whose type is the name of a schema. -/
  | fieldSchema (field type : String)
  | fieldType (field type : String)
  | flowArity (flow : String) (expected given : Nat)
  | importNotFound (path : String)
  | circularImport (chain : List String)
  | guardOutsideHandler (kind : GuardKind)
  | retryOutsideOutput (event : HandlerEvent)
  | maskToolCall
  /-- An agent without an instruction; the one that starts has no name. -/
  | missingInstruction (agent : Option String)
  | circularAgent (cycle : List String)
  | invalidPattern (guardrail reason : String)
  | parallelStatement
  | nestedFailure
  | continueOutsideLoop
  | escalateContinueOutsideLoop
  | mixedComposition (agent : String)
  deriving DecidableEq, Repr

namespace Cause

def code : Cause → Code
  | undefined .. => .undefinedReference
  | undefinedVariable _ => .undefinedVariable
  | duplicateDefinition .. | duplicateField _ | duplicateParameter _ | duplicateFailure =>
    .duplicateDefinition
  | noAttempts _ | noTime _ | modelProperty _ | fieldSchema .. | fieldType .. | flowArity .. =>
    .typeMismatch
  | importNotFound _ => .importNotFound
  | circularImport _ => .circularImport
  | guardOutsideHandler _ | retryOutsideOutput _ | maskToolCall => .guardAction
  | missingInstruction _ => .missingProperty
  | circularAgent _ => .circularAgent
  | invalidPattern .. => .guardrailPattern
  | parallelStatement | nestedFailure | continueOutsideLoop | escalateContinueOutsideLoop =>
    .misplacedStatement
  | mixedComposition _ => .mixedComposition

/-- How a guardrail action is spelled in messages. -/
def verb : GuardKind → String
  | .retry => "retry with"
  | kind => kind.name

def message : Cause → String
  | undefined kind name _ => "undefined " ++ kind.name ++ " '" ++ name ++ "'"
  | undefinedVariable name => "variable '$" ++ name ++ "' is used before it is defined"
  | duplicateDefinition kind name _ => "duplicate " ++ kind.name ++ " '" ++ name ++ "'"
  | duplicateField name => "duplicate field '" ++ name ++ "'"
  | duplicateParameter name => "duplicate parameter '" ++ name ++ "'"
  | duplicateFailure => "duplicate failure block 'on failure'"
  | noAttempts policy => "retry policy '" ++ policy ++ "' must allow at least 1 attempt"
  | noTime policy => "timeout policy '" ++ policy ++ "' must be longer than 0 seconds"
  | modelProperty key => "model property '" ++ key ++ "' expects "
      ++ if key = "temperature" then "a number" else "a positive integer"
  | fieldSchema field type => "field '" ++ field ++ "' cannot reference schema '" ++ type ++ "'"
  | fieldType field type => "field '" ++ field ++ "' has unknown type '" ++ type
      ++ "' (expected string, int, float, bool or list[T])"
  | flowArity flow expected given => "flow '" ++ flow ++ "' takes " ++ toString expected
      ++ " argument(s) but " ++ toString given ++ " were given"
  | importNotFound path => "imported file '" ++ path ++ "' not found"
  | circularImport chain => "circular import: " ++ " -> ".intercalate chain
  | guardOutsideHandler kind =>
    "'" ++ verb kind ++ "' is only allowed inside guardrail handlers"
  | retryOutsideOutput event =>
    "'retry with' is only allowed in 'on output', not 'on " ++ event.name ++ "'"
  | maskToolCall => "'mask' is not allowed in 'on tool-call'; tool arguments cannot be rewritten"
  | missingInstruction agent =>
    (match agent with
      | some name => "agent '" ++ name ++ "'"
      | none => "default agent") ++ " is missing required property 'instruction'"
  | circularAgent cycle => "circular agent reference: " ++ " -> ".intercalate cycle
  | invalidPattern guardrail reason =>
    "guardrail '" ++ guardrail ++ "' has an invalid pattern: " ++ reason
  | parallelStatement => "only 'run agent' statements without escalation handlers are allowed in "
      ++ "a parallel block"
  | nestedFailure => "'on failure' is only allowed at the top level of a flow"
  | continueOutsideLoop => "'continue' is only allowed inside a loop"
  | escalateContinueOutsideLoop => "'on escalate continue' is only allowed inside a loop"
  | mixedComposition agent => "agent '" ++ agent ++ "' defines both 'delegate' and 'use'"

def help : Cause → Option String
  | undefined kind name candidates =>
    let defined :=
      if candidates.isEmpty then "no " ++ kind.plural ++ " are defined"
      else "defined " ++ kind.plural ++ " are: " ++ ", ".intercalate candidates
    match Text.suggestion? name candidates with
    | some best => some ("did you mean '" ++ best ++ "'? " ++ defined)
    | none => some defined
  | duplicateDefinition _ _ first => some ("first defined at " ++ first)
  | mixedComposition _ => some ("'delegate' hands the conversation over while 'use' calls agents "
      ++ "as tools; pick one")
  | _ => none

end Cause

/-- A problem: its cause and its place in a file. -/
structure Problem where
  cause : Cause
  span : Span
  deriving DecidableEq, Repr

def Problem.toDiagnostic (p : Problem) (file : String) : Diagnostic where
  code := p.cause.code
  file := file
  line := p.span.line
  column := p.span.column
  length := max p.span.length 1
  message := p.cause.message
  help := p.cause.help

end Workflow
