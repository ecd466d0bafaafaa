import Workflow.Json.Basic
import Workflow.Program.Basic

/-!
Programs as JSON. Every alternative is an object that names itself in its first field, and every
piece of a program is written together with its span.
-/

namespace Workflow

def Span.toJson (s : Span) : Json :=
  .obj [("start", .nat s.start), ("end", .nat s.stop), ("line", .nat s.line),
    ("column", .nat s.column)]

def Spanned.toJson {α : Type} (encode : α → Json) (s : Spanned α) : Json :=
  .obj [("node", encode s.node), ("span", s.span.toJson)]

namespace Program

def nameJson (n : Name) : Json := n.toJson .str

def namesJson (ns : List Name) : Json := .arr (ns.map nameJson)

def tagged (tag name : String) (fields : List (String × Json)) : Json :=
  .obj ((tag, .str name) :: fields)

def piece (kind : String) (span : Span) (fields : List (String × Json)) : Json :=
  tagged "kind" kind (fields ++ [("span", span.toJson)])

def literalJson : Literal → Json
  | .string s => .obj [("type", .str "String"), ("value", .str s)]
  | .int n => .obj [("type", .str "Int"), ("value", .int n)]
  | .float x => .obj [("type", .str "Float"), ("value", .float x)]
  | .bool b => .obj [("type", .str "Bool"), ("value", .bool b)]
  | .null => .obj [("type", .str "Null")]

def binOpJson : BinOp → Json
  | .eq => .str "Eq"
  | .notEq => .str "NotEq"
  | .lt => .str "Lt"
  | .ltEq => .str "LtEq"
  | .gt => .str "Gt"
  | .gtEq => .str "GtEq"
  | .similar => .str "Similar"
  | .contains => .str "Contains"
  | .and => .str "And"
  | .or => .str "Or"
  | .add => .str "Add"
  | .sub => .str "Sub"

mutual

def exprJson : Expr → Json
  | .literal value span => piece "Literal" span [("value", literalJson value)]
  | .var name span => piece "Variable" span [("name", .str name)]
  | .property base path span =>
    piece "Property" span [("base", nameJson base), ("path", namesJson path)]
  | .list items span => piece "List" span [("items", .arr (exprsJson items))]
  | .map entries span => piece "Map" span [("entries", .arr (entriesJson entries))]
  | .binary op left right span =>
    piece "Binary" span [("op", binOpJson op), ("left", exprJson left), ("right", exprJson right)]
  | .not operand span => piece "Not" span [("operand", exprJson operand)]
  | .filter list path pathSpan op value span => piece "Filter" span [("list", exprJson list),
      ("property", .obj [("path", namesJson path), ("span", pathSpan.toJson)]),
      ("op", binOpJson op), ("value", exprJson value)]

def exprsJson : List Expr → List Json
  | [] => []
  | e :: rest => exprJson e :: exprsJson rest

def entriesJson : List (Name × Expr) → List Json
  | [] => []
  | (k, e) :: rest => .arr [nameJson k, exprJson e] :: entriesJson rest

end

def invocationJson : Invocation → Json
  | .agent name args =>
    tagged "type" "Agent" [("name", nameJson name), ("args", .arr (exprsJson args))]
  | .prompt name args model =>
    tagged "type" "Llm" [("prompt", nameJson name), ("args", .arr (exprsJson args)),
      ("model", Json.orNull nameJson model)]
  | .flow name args =>
    tagged "type" "Flow" [("name", nameJson name), ("args", .arr (exprsJson args))]

def escalateJson : EscalateAction Expr → Json
  | .ret value => tagged "action" "Return" [("value", exprJson value)]
  | .continue => tagged "action" "Continue" []
  | .abort => tagged "action" "Abort" []

def guardJson (g : GuardAction) : Json :=
  let kind := match g.kind with
    | .mask => "Mask"
    | .block => "Block"
    | .warn => "Warn"
    | .retry => "Retry"
  piece "Guard" g.span [("kind", .str kind), ("guardrail", nameJson g.guardrail),
    ("message", Json.orNull nameJson g.message)]

mutual

def stmtJson : Stmt → Json
  | .assign target value span =>
    piece "Assignment" span [("target", nameJson target), ("value", exprJson value)]
  | .setPath target path value span =>
    piece "PropertyAssignment" span [("target", nameJson target), ("path", namesJson path),
      ("value", exprJson value)]
  | .run target invocation onEscalate span =>
    piece "Run" span [("target", Json.orNull nameJson target),
      ("invocation", invocationJson invocation), ("on_escalate", Json.orNull escalateJson onEscalate)]
  | .parallel body span => piece "Parallel" span [("body", .arr (stmtsJson body))]
  | .loop max body span => piece "Loop" span [("max", Json.orNull (Spanned.toJson .nat) max),
      ("body", .arr (stmtsJson body))]
  | .forEach var iterable body span =>
    piece "For" span [("var", nameJson var), ("iterable", exprJson iterable),
      ("body", .arr (stmtsJson body))]
  | .branch condition thenBody elseBody span =>
    piece "If" span [("condition", exprJson condition), ("then_body", .arr (stmtsJson thenBody)),
      ("else_body", .arr (stmtsJson elseBody))]
  | .select subject arms span =>
    piece "Match" span [("subject", exprJson subject), ("arms", .arr (armsJson arms))]
  | .failure body span => piece "Failure" span [("body", .arr (stmtsJson body))]
  | .ret value span => piece "Return" span [("value", Json.orNull exprJson value)]
  | .continue span => piece "Continue" span []
  | .abort message span => piece "Abort" span [("message", Json.orNull exprJson message)]
  | .push value target span =>
    piece "Push" span [("value", exprJson value), ("target", nameJson target)]
  | .log message span => piece "Log" span [("message", exprJson message)]
  | .guard action => guardJson action

def stmtsJson : List Stmt → List Json
  | [] => []
  | s :: rest => stmtJson s :: stmtsJson rest

def armsJson : List Arm → List Json
  | [] => []
  | .mk pattern body span :: rest =>
    .obj [("pattern", Json.orNull (Spanned.toJson literalJson) pattern), ("body", stmtJson body),
      ("span", span.toJson)] :: armsJson rest

end

def typeJson : TypeTag → Json
  | .named name span => tagged "type" "Named" [("name", .str name), ("span", span.toJson)]
  | .list element span =>
    tagged "type" "List" [("element", typeJson element), ("span", span.toJson)]
  | .optional inner span =>
    tagged "type" "Optional" [("inner", typeJson inner), ("span", span.toJson)]

def promptJson (d : PromptDef) : Json :=
  let clause (c : EscalationClause) : Json :=
    let op := match c.op with
      | .equals => "Equals"
      | .similar => "Similar"
      | .notEquals => "NotEquals"
      | .contains => "Contains"
    .obj [("op", .str op), ("literal", nameJson c.literal), ("span", c.span.toJson)]
  piece "Prompt" d.span [("name", nameJson d.name), ("body", nameJson d.body),
    ("model", Json.orNull nameJson d.model), ("expecting", Json.orNull nameJson d.expecting),
    ("escalate", Json.orNull clause d.escalate)]

def agentJson (d : AgentDef) : Json :=
  piece "Agent" d.span [("name", Json.orNull nameJson d.name),
    ("instruction", Json.orNull nameJson d.instruction), ("tools", namesJson d.tools),
    ("retry", Json.orNull nameJson d.retry), ("timeout", Json.orNull nameJson d.timeout),
    ("description", Json.orNull nameJson d.description),
    ("delegate", Json.orNull namesJson d.delegate), ("uses", Json.orNull namesJson d.uses)]

def eventJson : HandlerEvent → Json
  | .start => .str "Start"
  | .input => .str "Input"
  | .output => .str "Output"
  | .toolCall => .str "ToolCall"
  | .toolResult => .str "ToolResult"

def declJson : Decl → Json
  | .importDecl d => piece "Import" d.span [("path", nameJson d.path)]
  | .model d =>
    let property (p : Name × Spanned Literal) : Json :=
      .obj [("key", nameJson p.1), ("value", p.2.toJson literalJson)]
    piece "Model" d.span [("name", nameJson d.name), ("model", nameJson d.model),
      ("properties", .arr (d.properties.map property))]
  | .schema d =>
    let field (f : FieldDef) : Json :=
      .obj [("name", nameJson f.name), ("ty", typeJson f.type), ("span", f.span.toJson)]
    piece "Schema" d.span [("name", nameJson d.name), ("fields", .arr (d.fields.map field))]
  | .tool d =>
    let kind := match d.kind with
      | .builtin => "Builtin"
      | .mcp => "Mcp"
    piece "Tool" d.span [("name", nameJson d.name), ("kind", .str kind),
      ("target", nameJson d.target)]
  | .retry d =>
    let backoff := match d.backoff with
      | .fixed => "Fixed"
      | .linear => "Linear"
      | .exponential => "Exponential"
    piece "Retry" d.span [("name", nameJson d.name), ("attempts", d.attempts.toJson .nat),
      ("backoff", .str backoff)]
  | .timeout d =>
    piece "Timeout" d.span [("name", nameJson d.name), ("seconds", d.seconds.toJson .nat)]
  | .guardrail d =>
    piece "Guardrail" d.span [("name", nameJson d.name), ("pattern", nameJson d.pattern)]
  | .prompt d => promptJson d
  | .agent d => agentJson d
  | .flow d => piece "Flow" d.span [("name", nameJson d.name), ("params", namesJson d.params),
      ("body", .arr (stmtsJson d.body))]
  | .handler d =>
    piece "Handler" d.span [("event", d.event.toJson eventJson), ("body", .arr (stmtsJson d.body))]

def toJson (p : Program) : Json :=
  .obj [("name", .str p.name), ("version", Json.orNull nameJson p.version),
    ("items", .arr (p.decls.map declJson))]

end Program

end Workflow
