import Workflow.Program.Kinds
import Workflow.Text.Position

/-!
Programs: what a workflow source says. Names, literals and statements carry the stretch of text
they were read from, so that problems can be shown in place.
-/

namespace Workflow

/-- A name in a program. Names of variables have no leading `$`. -/
abbrev Name := Spanned String

/-- A constant. -/
inductive Literal where
  | string (s : String)
  | int (n : Int)
  | float (x : Float)
  | bool (b : Bool)
  | null
  deriving Repr

/-- An expression. -/
inductive Expr where
  | literal (value : Literal) (span : Span)
  | var (name : String) (span : Span)
  /-- `$base.a.b` -/
  | property (base : Name) (path : List Name) (span : Span)
  | list (items : List Expr) (span : Span)
  | map (entries : List (Name × Expr)) (span : Span)
  | binary (op : BinOp) (left right : Expr) (span : Span)
  | not (operand : Expr) (span : Span)
  /-- `filter list where .a.b op value` -/
  | filter (list : Expr) (path : List Name) (pathSpan : Span) (op : BinOp) (value : Expr) (span : Span)
  deriving Repr

/-- What a statement runs. -/
inductive Invocation where
  | agent (name : Name) (args : List Expr)
  | prompt (name : Name) (args : List Expr) (model : Option Name)
  | flow (name : Name) (args : List Expr)
  deriving Repr

def Invocation.args : Invocation → List Expr
  | agent _ as | prompt _ as _ | flow _ as => as

/-- What happens when an invocation escalates. -/
inductive EscalateAction (ε : Type) where
  | ret (value : ε)
  | continue
  | abort
  deriving Repr

/-- A guardrail action in a handler. -/
structure GuardAction where
  kind : GuardKind
  guardrail : Name
  /-- What the model is told when it has to try again. -/
  message : Option Name
  span : Span
  deriving Repr

mutual

/-- A statement. -/
inductive Stmt where
  | assign (target : Name) (value : Expr) (span : Span)
  | setPath (target : Name) (path : List Name) (value : Expr) (span : Span)
  | run (target : Option Name) (invocation : Invocation) (onEscalate : Option (EscalateAction Expr)) (span : Span)
  | parallel (body : List Stmt) (span : Span)
  | loop (max : Option (Spanned Nat)) (body : List Stmt) (span : Span)
  | forEach (var : Name) (iterable : Expr) (body : List Stmt) (span : Span)
  | branch (condition : Expr) (thenBody elseBody : List Stmt) (span : Span)
  | select (subject : Expr) (arms : List Arm) (span : Span)
  | failure (body : List Stmt) (span : Span)
  | ret (value : Option Expr) (span : Span)
  | continue (span : Span)
  | abort (message : Option Expr) (span : Span)
  | push (value : Expr) (target : Name) (span : Span)
  | log (message : Expr) (span : Span)
  | guard (action : GuardAction)

/-- A case of a `match`. The arm for everything else has no pattern. -/
inductive Arm where
  | mk (pattern : Option (Spanned Literal)) (body : Stmt) (span : Span)

end

def Stmt.span : Stmt → Span
  | assign _ _ s | setPath _ _ _ s | run _ _ _ s | parallel _ s | loop _ _ s | forEach _ _ _ s
  | branch _ _ _ s | select _ _ s | failure _ s | ret _ s | .continue s | abort _ s | push _ _ s
  | log _ s => s
  | guard action => action.span

/-- A field type as written; analysis decides whether there is such a type. -/
inductive TypeTag where
  | named (name : String) (span : Span)
  | list (element : TypeTag) (span : Span)
  | optional (inner : TypeTag) (span : Span)
  deriving Repr

/-- `import "path"` -/
structure ImportDecl where
  path : Name
  span : Span
  deriving Repr

/-- `model NAME = "provider/model"`, with properties. -/
structure ModelDef where
  name : Name
  model : Name
  properties : List (Name × Spanned Literal)
  span : Span
  deriving Repr

/-- A field of a schema. -/
structure FieldDef where
  name : Name
  type : TypeTag
  span : Span
  deriving Repr

/-- `schema NAME:` with typed fields. -/
structure SchemaDef where
  name : Name
  fields : List FieldDef
  span : Span
  deriving Repr

/-- `tool NAME = builtin|mcp "target"` -/
structure ToolDef where
  name : Name
  kind : ToolKind
  target : Name
  span : Span
  deriving Repr

/-- `retry NAME = N times, KIND backoff` -/
structure RetryDef where
  name : Name
  attempts : Spanned Nat
  backoff : Backoff
  span : Span
  deriving Repr

/-- `timeout NAME = N seconds|minutes` -/
structure TimeoutDef where
  name : Name
  seconds : Spanned Nat
  span : Span
  deriving Repr

/-- `guardrail NAME = regex "pattern"` -/
structure GuardrailDef where
  name : Name
  pattern : Name
  span : Span
  deriving Repr

/-- `escalate if OP "text"` -/
structure EscalationClause where
  op : EscalationOp
  literal : Name
  span : Span
  deriving Repr

/-- `prompt NAME [expecting SCHEMA] [using model MODEL]: "body"` -/
structure PromptDef where
  name : Name
  body : Name
  model : Option Name
  expecting : Option Name
  escalate : Option EscalationClause
  span : Span
  deriving Repr

/-- `agent [NAME]:` with properties. An agent without a name is the one that starts. -/
structure AgentDef where
  name : Option Name
  instruction : Option Name
  tools : List Name
  retry : Option Name
  timeout : Option Name
  description : Option Name
  delegate : Option (List Name)
  uses : Option (List Name)
  span : Span
  deriving Repr

/-- `flow NAME $params:` with a body. -/
structure FlowDef where
  name : Name
  params : List Name
  body : List Stmt
  span : Span

/-- `on EVENT do … end` -/
structure HandlerDef where
  event : Spanned HandlerEvent
  body : List Stmt
  span : Span

/-- A definition at the top of a source. -/
inductive Decl where
  | importDecl (d : ImportDecl)
  | model (d : ModelDef)
  | schema (d : SchemaDef)
  | tool (d : ToolDef)
  | retry (d : RetryDef)
  | timeout (d : TimeoutDef)
  | guardrail (d : GuardrailDef)
  | prompt (d : PromptDef)
  | agent (d : AgentDef)
  | flow (d : FlowDef)
  | handler (d : HandlerDef)

def Decl.span : Decl → Span
  | importDecl d => d.span
  | model d => d.span
  | schema d => d.span
  | tool d => d.span
  | retry d => d.span
  | timeout d => d.span
  | guardrail d => d.span
  | prompt d => d.span
  | agent d => d.span
  | flow d => d.span
  | handler d => d.span

/-- A whole source: the name of its file, the version it asks for, and its definitions. -/
structure Program where
  name : String
  version : Option Name
  decls : List Decl

end Workflow
