/-!
The small vocabularies of the workflow language: kinds of tools, retry delays, escalation
conditions, handler events, guardrail actions and binary operators. Programs and compiled units
share them.
-/

namespace Workflow

/-- Where a tool lives. -/
inductive ToolKind where
  | builtin
  | mcp
  deriving DecidableEq, Repr

def ToolKind.name : ToolKind → String
  | builtin => "builtin"
  | mcp => "mcp"

/-- How the delay between attempts grows. -/
inductive Backoff where
  | fixed
  | linear
  | exponential
  deriving DecidableEq, Repr, Inhabited

def Backoff.name : Backoff → String
  | fixed => "fixed"
  | linear => "linear"
  | exponential => "exponential"

/-- How the output of a prompt is compared with the text that makes it escalate. -/
inductive EscalationOp where
  | equals
  | similar
  | notEquals
  | contains
  deriving DecidableEq, Repr

namespace EscalationOp

def symbol : EscalationOp → String
  | equals => "=="
  | similar => "~"
  | notEquals => "!="
  | contains => "contains"

def name : EscalationOp → String
  | equals => "equals"
  | similar => "similar"
  | notEquals => "not_equals"
  | contains => "contains"

end EscalationOp

/-- What a handler reacts to. -/
inductive HandlerEvent where
  | start
  | input
  | output
  | toolCall
  | toolResult
  deriving DecidableEq, Repr

namespace HandlerEvent

def name : HandlerEvent → String
  | start => "start"
  | input => "input"
  | output => "output"
  | toolCall => "tool-call"
  | toolResult => "tool-result"

def all : List HandlerEvent := [start, input, output, toolCall, toolResult]

end HandlerEvent

/-- What a handler does with a text that a guardrail matches. -/
inductive GuardKind where
  | mask
  | block
  | warn
  | retry
  deriving DecidableEq, Repr

def GuardKind.name : GuardKind → String
  | mask => "mask"
  | block => "block"
  | warn => "warn"
  | retry => "retry"

/-- Binary operators. -/
inductive BinOp where
  | eq
  | notEq
  | lt
  | ltEq
  | gt
  | gtEq
  | similar
  | contains
  | and
  | or
  | add
  | sub
  deriving DecidableEq, Repr

namespace BinOp

def symbol : BinOp → String
  | eq => "=="
  | notEq => "!="
  | lt => "<"
  | ltEq => "<="
  | gt => ">"
  | gtEq => ">="
  | similar => "~"
  | contains => "contains"
  | and => "and"
  | or => "or"
  | add => "+"
  | sub => "-"

def name : BinOp → String
  | eq => "eq"
  | notEq => "not_eq"
  | lt => "lt"
  | ltEq => "lt_eq"
  | gt => "gt"
  | gtEq => "gt_eq"
  | similar => "similar"
  | contains => "contains"
  | and => "and"
  | or => "or"
  | add => "add"
  | sub => "sub"

def all : List BinOp := [eq, notEq, lt, ltEq, gt, gtEq, similar, contains, and, or, add, sub]

end BinOp

end Workflow
