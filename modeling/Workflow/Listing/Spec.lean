import Workflow.Json.Printer
import Workflow.Program.Kinds

/-!
Registrations: what definitions amount to once a program is compiled. They are plain data, without
places in a text, and refer to each other by name.
-/

namespace Workflow

/-- A model: the identifier its provider knows it by, and parameters. -/
structure ModelSpec where
  name : String
  model : String
  params : Table Json := []

namespace ModelSpec

def temperature (m : ModelSpec) : Option Float :=
  match m.params.get? "temperature" with
  | some (.num n) => some n.toFloat
  | _ => none

/-- The greatest number of tokens, if it is an unsigned 32-bit integer. -/
def maxTokens (m : ModelSpec) : Option Nat :=
  match m.params.get? "max_tokens" with
  | some (.num n) => n.unsigned?.filter (· ≤ 0xffffffff)
  | _ => none

end ModelSpec

/-- Types of schema fields. -/
inductive FieldType where
  | string
  | int
  | float
  | bool
  | list (element : FieldType)
  deriving DecidableEq, Repr

namespace FieldType

def ofName? : String → Option FieldType
  | "string" => some string
  | "int" => some int
  | "float" => some float
  | "bool" => some bool
  | _ => none

def display : FieldType → String
  | string => "string"
  | int => "int"
  | float => "float"
  | bool => "bool"
  | list element => "list[" ++ element.display ++ "]"

end FieldType

structure SchemaField where
  name : String
  type : FieldType
  optional : Bool := false
  deriving DecidableEq, Repr

def SchemaField.display (f : SchemaField) : String :=
  f.name ++ ":" ++ f.type.display ++ if f.optional then "?" else ""

/-- A schema: the shape of a structured answer. -/
structure SchemaSpec where
  name : String
  fields : List SchemaField
  deriving DecidableEq, Repr

structure ToolSpec where
  name : String
  kind : ToolKind
  target : String
  deriving DecidableEq, Repr

/-- A retry policy: how often something is tried, and how long to wait in between. -/
structure RetryPolicy where
  name : String
  /-- All attempts, the first one included. -/
  attempts : Nat
  backoff : Backoff
  deriving DecidableEq, Repr, Inhabited

/-- A limit on the time of a conversation. -/
structure TimeoutPolicy where
  name : String
  seconds : Nat
  deriving DecidableEq, Repr

/-- A guardrail with its pattern. -/
structure GuardrailSpec where
  name : String
  pattern : String
  deriving DecidableEq, Repr

/-- When the output of a prompt escalates. -/
structure EscalationCondition where
  op : EscalationOp
  literal : String
  deriving DecidableEq, Repr

structure PromptSpec where
  name : String
  template : String
  model : Option String := none
  expecting : Option String := none
  escalate : Option EscalationCondition := none
  deriving DecidableEq, Repr

structure AgentSpec where
  name : String
  instruction : String
  tools : List String := []
  description : Option String := none
  retry : Option String := none
  timeout : Option String := none
  /-- Agents the conversation may be handed to. -/
  delegate : List String := []
  /-- Agents that can be called like tools. -/
  uses : List String := []
  deriving DecidableEq, Repr

end Workflow
