import Workflow.Analysis.Basic
import Workflow.Listing.Basic
import Workflow.Listing.SourceMap

/-!
The listing of a program and its imports. Definitions come first, in the order in which analysis
found them, then the handlers. Every operation remembers the place it was made from; a comment in
front of each definition names its file and line.
-/

namespace Workflow

namespace Lower

def fieldType : TypeTag → Option (FieldType × Bool)
  | .optional inner _ => (fieldType inner).map fun (type, _) => (type, true)
  | .list element _ => (fieldType element).map fun (type, _) => (.list type, false)
  | .named name _ => (FieldType.ofName? name).map fun type => (type, false)

/-- The registration of a model; of two values for one parameter the last one counts. -/
def modelSpec (d : ModelDef) : ModelSpec :=
  ⟨d.name.node, d.model.node, .ofList (d.properties.map fun (k, v) => (k.node, v.node.value))⟩

def schemaSpec (d : SchemaDef) : SchemaSpec :=
  ⟨d.name.node, d.fields.filterMap fun f =>
    (fieldType f.type).map fun (type, optional) => ⟨f.name.node, type, optional⟩⟩

def promptSpec (d : PromptDef) : PromptSpec :=
  ⟨d.name.node, d.body.node, d.model.map (·.node), d.expecting.map (·.node),
    d.escalate.map fun c => ⟨c.op, c.literal.node⟩⟩

def agentSpec (name : String) (d : AgentDef) : AgentSpec where
  name := name
  instruction := (d.instruction.map (·.node)).getD ""
  tools := plainNames d.tools
  description := d.description.map (·.node)
  retry := d.retry.map (·.node)
  timeout := d.timeout.map (·.node)
  delegate := plainNames (d.delegate.getD [])
  uses := plainNames (d.uses.getD [])

def escalate : EscalateAction Expr → EscalateAction Term
  | .ret value => .ret value.term
  | .continue => .continue
  | .abort => .abort

def runOp (target : Option Name) (onEscalate : Option (EscalateAction Expr)) : Invocation → Op
  | .agent name args =>
    .runAgent (target.map (·.node)) name.node (Expr.terms args) (onEscalate.map escalate)
  | .prompt name args model =>
    .callPrompt (target.map (·.node)) name.node (Expr.terms args) (model.map (·.node)) (onEscalate.map escalate)
  | .flow name args => .runFlow (target.map (·.node)) name.node (Expr.terms args)

def branch? : Stmt → Option ParallelCall
  | .run target (.agent name args) _ _ =>
    some ⟨name.node, Expr.terms args, target.map (·.node)⟩
  | _ => none

/-- An operation at a depth, with the place it comes from. -/
structure Step where
  depth : Nat
  op : Op
  span : Span

mutual

def stmt (depth : Nat) : Stmt → List Step
  | .assign target value span => [⟨depth, .assign target.node value.term, span⟩]
  | .setPath target path value span =>
    [⟨depth, .setPath target.node (plainNames path) value.term, span⟩]
  | .run target invocation onEscalate span => [⟨depth, runOp target onEscalate invocation, span⟩]
  | .parallel body span => [⟨depth, .parallel (body.filterMap branch?), span⟩]
  | .loop max body span => ⟨depth, .loop (max.map (·.node)), span⟩ :: block (depth + 1) body
  | .forEach var iterable body span =>
    ⟨depth, .forEach var.node iterable.term, span⟩ :: block (depth + 1) body
  | .branch condition thenBody elseBody span =>
    ⟨depth, .branch condition.term, span⟩ :: block (depth + 1) thenBody
      ++ (elseBody.head?.toList.map fun first => ⟨depth, .otherwise, first.span⟩)
      ++ block (depth + 1) elseBody
  | .select subject cases span =>
    ⟨depth, .select subject.term, span⟩ :: arms (depth + 1) cases
  | .failure body span => ⟨depth, .onFailure, span⟩ :: block (depth + 1) body
  | .ret value span =>
    [⟨depth, .ret (match value with
      | some e => e.term
      | none => .literal .null), span⟩]
  | .continue span => [⟨depth, .continue, span⟩]
  | .abort message span => [⟨depth, .abort (message.map Expr.term), span⟩]
  | .push value target span => [⟨depth, .push value.term target.node, span⟩]
  | .log message span => [⟨depth, .log message.term, span⟩]
  | .guard g => [⟨depth, .guard g.kind g.guardrail.node (g.message.map (·.node)), g.span⟩]

def block (depth : Nat) : List Stmt → List Step
  | [] => []
  | s :: rest => stmt depth s ++ block depth rest

def arms (depth : Nat) : List Arm → List Step
  | [] => []
  | .mk pattern body span :: rest =>
    ⟨depth, .arm (pattern.map (·.node.value)), span⟩ :: stmt (depth + 1) body ++ arms depth rest

end

def decl (name : String) : Decl → List Step
  | .importDecl _ => []
  | .model d => [⟨0, .model (modelSpec d), d.span⟩]
  | .schema d => [⟨0, .schema (schemaSpec d), d.span⟩]
  | .tool d => [⟨0, .tool ⟨d.name.node, d.kind, d.target.node⟩, d.span⟩]
  | .retry d => [⟨0, .retry ⟨d.name.node, d.attempts.node, d.backoff⟩, d.span⟩]
  | .timeout d => [⟨0, .timeout ⟨d.name.node, d.seconds.node⟩, d.span⟩]
  | .guardrail d => [⟨0, .guardrail ⟨d.name.node, d.pattern.node⟩, d.span⟩]
  | .prompt d => [⟨0, .prompt (promptSpec d), d.span⟩]
  | .agent d => [⟨0, .agent (agentSpec name d), d.span⟩]
  | .flow d => ⟨0, .flow d.name.node (plainNames d.params), d.span⟩ :: block 1 d.body
  | .handler d => ⟨0, .handler d.event.node, d.span⟩ :: block 1 d.body

/-- A line, and the file and place it comes from if it is an operation. -/
structure Placed where
  line : Line
  origin : Option (String × Span)

def placed (comments : Bool) (file name : String) (d : Decl) : List Placed :=
  (if comments then
    [⟨⟨0, .comment (file ++ ":" ++ toString d.span.line)⟩, none⟩] else [])
  ++ (decl name d).map fun s => ⟨⟨s.depth, .op s.op⟩, some (file, s.span)⟩

def handlers (p : Program) : List Decl :=
  p.decls.filter fun d =>
    match d with
    | .handler _ => true
    | _ => false

def lines (comments : Bool) (defs : Definitions) (programs : List Program) : List Placed :=
  defs.flatMap (fun d => placed comments d.file d.name d.decl)
    ++ programs.flatMap fun p => (handlers p).flatMap (placed comments p.name "")

end Lower

def Listing.ofPlaced (lines : List Lower.Placed) : Listing := lines.map (·.line)

def SourceMap.ofPlaced (generatedFile sourceFile : String) (lines : List Lower.Placed) : SourceMap :=
  ⟨generatedFile, sourceFile, lines.zipIdx.filterMap fun (l, n) =>
    l.origin.map fun (file, span) => mappingFrom sourceFile file (n + 1) span.line span.column⟩

end Workflow
