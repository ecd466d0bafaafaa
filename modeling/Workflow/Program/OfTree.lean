import Workflow.Grammar.Tree
import Workflow.Program.Basic
import Workflow.Program.Quoted

/-!
From derivations to programs. Every rule of the grammar has its clause; a tree of another shape is
malformed. The only thing that can be wrong with a derivation of the grammar is an integer that
does not fit its place, and the first such integer in the text is the one that is reported.
-/

namespace Workflow

/-- Why a derivation stands for no program. -/
inductive FormError where
  /-- An integer that is too large. -/
  | invalidInteger (text : String) (span : Span)
  /-- A tree that no rule forms. -/
  | malformed (phrase : Nonterminal) (span : Span)
  deriving Repr

namespace FormError

def message : FormError → String
  | invalidInteger text _ => "invalid integer literal '" ++ text ++ "'"
  | malformed phrase _ => "malformed " ++ phrase.name ++ " node"

def span : FormError → Span
  | invalidInteger _ s | malformed _ s => s

end FormError

abbrev Formed (α : Type) := Except FormError α

namespace Tree

def malformed {α : Type} : Tree → Formed α
  | node head _ span => .error (.malformed head span)
  | leaf t | keyword t => .error (.malformed .unit t.span)

end Tree

namespace Token

def word (t : Token) : Name := ⟨t.text, t.span⟩

def variableName (t : Token) : Name := ⟨String.ofList (t.text.toList.dropWhile (· = '$')), t.span⟩

def quotedText (t : Token) : String :=
  match t.kind with
  | .tripleString => Quoted.block t.text
  | _ => Quoted.text t.text

/-- The text of a string token, with its place. -/
def quoted (t : Token) : Name := ⟨t.quotedText, t.span⟩

def digitsValue (t : Token) : Nat :=
  t.text.toList.foldl (fun n c => if c.isDigit then n * 10 + (c.toNat - 48) else n) 0

def integer (t : Token) (bound : Nat) (span : Span) : Formed Nat :=
  if t.digitsValue ≤ bound then .ok t.digitsValue else .error (.invalidInteger t.text span)

def float (t : Token) : Float :=
  let fraction := (t.text.toList.dropWhile (· ≠ '.')).length - 1
  Float.ofScientific t.digitsValue true fraction

end Token

namespace Form

def words (kind : TokenKind) (t : Tree) : List Name :=
  (t.tokens.filter fun token => token.kind = kind).map fun token =>
    if kind = .var then token.variableName else token.word

def literal : Tree → Formed (Spanned Literal)
  | .node .literal [.keyword t] span =>
    .ok ⟨if t.text = "true" then .bool true else if t.text = "false" then .bool false else .null,
      span⟩
  | .node .literal [.leaf t] span =>
    match t.kind with
    | .int => do pure ⟨.int (← t.integer 0x7fffffffffffffff span), span⟩
    | .float => .ok ⟨.float t.float, span⟩
    | _ => .ok ⟨.string t.quotedText, span⟩
  | .node .literal [.leaf _, .leaf t] span =>
    match t.kind with
    | .int => do pure ⟨.int (-(← t.integer 0x7fffffffffffffff span)), span⟩
    | _ => .ok ⟨.float (-t.float), span⟩
  | t => t.malformed

def comparison : Tree → Formed BinOp
  | .node .cmpOp [.keyword _] _ => .ok .contains
  | .node .cmpOp [.leaf t] span =>
    match t.kind with
    | .eqEq => .ok .eq
    | .notEq => .ok .notEq
    | .lt => .ok .lt
    | .ltEq => .ok .ltEq
    | .gt => .ok .gt
    | .gtEq => .ok .gtEq
    | .tilde => .ok .similar
    | _ => .error (.malformed .cmpOp span)
  | t => t.malformed

def key : Tree → Formed Name
  | .node .mapKey [.leaf t] _ => .ok (if t.kind = .string then t.quoted else t.word)
  | t => t.malformed

mutual

def expr : Tree → Formed Expr
  | .node .expr [t] _ => expr t
  | .node .orExpr [t] _ => expr t
  | .node .orExpr [l, .keyword _, r] span => do pure (.binary .or (← expr l) (← expr r) span)
  | .node .andExpr [t] _ => expr t
  | .node .andExpr [l, .keyword _, r] span => do pure (.binary .and (← expr l) (← expr r) span)
  | .node .notExpr [t] _ => expr t
  | .node .notExpr [.keyword _, t] span => do pure (.not (← expr t) span)
  | .node .cmpExpr [t] _ => expr t
  | .node .cmpExpr [l, op, r] span => do
    let op ← comparison op
    pure (.binary op (← expr l) (← expr r) span)
  | .node .addExpr [t] _ => expr t
  | .node .addExpr [l, .leaf op, r] span => do
    pure (.binary (if op.kind = .minus then .sub else .add) (← expr l) (← expr r) span)
  | .node .atom [t] _ => expr t
  | .node .atom [.leaf _, t, .leaf _] _ => expr t
  | .node .literal children span => do
    pure (.literal (← literal (.node .literal children span)).node span)
  | .node .varRef [.leaf v] span => .ok (.var v.variableName.node span)
  | .node .varRef [.leaf v, path] span => .ok (.property v.variableName (words .ident path) span)
  | .node .listExpr [.leaf _, .leaf _] span => .ok (.list [] span)
  | .node .listExpr (.leaf _ :: items :: _) span => do pure (.list (← exprs items) span)
  | .node .mapExpr [.leaf _, .leaf _] span => .ok (.map [] span)
  | .node .mapExpr (.leaf _ :: items :: _) span => do pure (.map (← entries items) span)
  | .node .filterExpr [.keyword _, list, .keyword _, property, op, value] span => do
    let list ← expr list
    let op ← comparison op
    pure (.filter list (words .ident property) property.span op (← expr value) span)
  | t => t.malformed

def exprs : Tree → Formed (List Expr)
  | .node .elems [t] _ => do pure [← expr t]
  | .node .elems [ts, .leaf _, t] _ => do pure ((← exprs ts) ++ [← expr t])
  | .node .args [t] _ => do pure [← expr t]
  | .node .args [ts, .leaf _, t] _ => do pure ((← exprs ts) ++ [← expr t])
  | t => t.malformed

def entries : Tree → Formed (List (Name × Expr))
  | .node .entries [t] _ => do pure [← entry t]
  | .node .entries [ts, .leaf _, t] _ => do pure ((← entries ts) ++ [← entry t])
  | t => t.malformed

def entry : Tree → Formed (Name × Expr)
  | .node .entry [k, .leaf _, v] _ => do
    let k ← key k
    pure (k, ← expr v)
  | t => t.malformed

end

def modelOverride : Tree → Formed Name
  | .node .modelOverride [.keyword _, .keyword _, .leaf name] _ => .ok name.word
  | t => t.malformed

def invocation : Tree → Formed Invocation
  | .node .invocation (.keyword _ :: .keyword what :: .leaf name :: rest) span => do
    let (args, model) ← match rest with
      | [] => pure ([], none)
      | [model] => pure ([], some (← modelOverride model))
      | [.keyword _, args] => pure (← exprs args, none)
      | [.keyword _, args, model] => pure (← exprs args, some (← modelOverride model))
      | _ => .error (.malformed .invocation span)
    match what.text with
    | "agent" => pure (.agent name.word args)
    | "flow" => pure (.flow name.word args)
    | _ => pure (.prompt name.word args model)
  | t => t.malformed

def escalateHandler : Tree → Formed (EscalateAction Expr)
  | .node .escalateHandler [.keyword _, .keyword _, .node .escalateAction action _] span =>
    match action with
    | [.keyword _, value] => do pure (.ret (← expr value))
    | [.keyword t] => .ok (if t.text = "continue" then .continue else .abort)
    | _ => .error (.malformed .escalateHandler span)
  | t => t.malformed

/-- A call, after the variable that takes its result. -/
def runStmt (target : Option Name) (children : List Tree) (span : Span) : Formed Stmt :=
  match children with
  | [call, .leaf _] => do pure (.run target (← invocation call) none span)
  | [call, handler, .leaf _] => do
    let call ← invocation call
    pure (.run target call (some (← escalateHandler handler)) span)
  | _ => .error (.malformed .runStmt span)

def guardStmt : Tree → Formed Stmt
  | .node .guardStmt [.keyword _, .leaf name, .leaf _] span =>
    .ok (.guard ⟨.mask, name.word, none, span⟩)
  | .node .guardStmt [.keyword verb, .keyword _, .leaf name, .leaf _] span =>
    .ok (.guard ⟨if verb.text = "block" then .block else .warn, name.word, none, span⟩)
  | .node .guardStmt [.keyword _, .keyword _, .leaf text, .keyword _, .leaf name, .leaf _] span =>
    .ok (.guard ⟨.retry, name.word, some text.quoted, span⟩)
  | t => t.malformed

mutual

def stmt : Tree → Formed Stmt
  | .node .stmt [t] _ => stmt t
  | .node .simpleStmt [t] _ => stmt t
  | .node .assignment [.leaf v, .leaf _, value, .leaf _] span => do
    pure (.assign v.variableName (← expr value) span)
  | .node .propertyAssignment [.leaf v, path, .leaf _, value, .leaf _] span => do
    pure (.setPath v.variableName (words .ident path) (← expr value) span)
  | .node .runStmt (.leaf v :: .leaf _ :: rest) span => runStmt (some v.variableName) rest span
  | .node .runStmt rest span => runStmt none rest span
  | .node .parallelBlock [.keyword _, body] span => do pure (.parallel (← block body) span)
  | .node .loopBlock [.keyword _, body] span => do pure (.loop none (← block body) span)
  | .node .loopBlock [.keyword _, .keyword _, .leaf t, body] span => do
    let max ← t.integer 0xffffffff t.span
    pure (.loop (some ⟨max, t.span⟩) (← block body) span)
  | .node .forBlock [.keyword _, .leaf v, .keyword _, iterable, body] span => do
    let iterable ← expr iterable
    pure (.forEach v.variableName iterable (← block body) span)
  | .node .ifBlock [.keyword _, condition, .keyword _, .leaf _, .leaf _, body, .leaf _, .keyword _, .leaf _] span => do
    let condition ← expr condition
    pure (.branch condition (← stmts body) [] span)
  | .node .ifBlock [.keyword _, condition, .keyword _, .leaf _, .leaf _, body, .leaf _, other,
      .keyword _, .leaf _] span => do
    let condition ← expr condition
    let body ← stmts body
    pure (.branch condition body (← block other) span)
  | .node .matchBlock [.keyword _, subject, .keyword _, .leaf _, .leaf _, cases, .leaf _,
      .keyword _, .leaf _] span => do
    let subject ← expr subject
    pure (.select subject (← arms cases) span)
  | .node .failureBlock [.keyword _, .keyword _, body] span => do
    pure (.failure (← block body) span)
  | .node .returnStmt [.keyword _, .leaf _] span => .ok (.ret none span)
  | .node .returnStmt [.keyword _, value, .leaf _] span => do
    pure (.ret (some (← expr value)) span)
  | .node .continueStmt _ span => .ok (.continue span)
  | .node .abortStmt [.keyword _, .leaf _] span => .ok (.abort none span)
  | .node .abortStmt [.keyword _, message, .leaf _] span => do
    pure (.abort (some (← expr message)) span)
  | .node .pushStmt [.keyword _, value, .keyword _, .leaf v, .leaf _] span => do
    pure (.push (← expr value) v.variableName span)
  | .node .logStmt [.keyword _, message, .leaf _] span => do pure (.log (← expr message) span)
  | .node .guardStmt children span => guardStmt (.node .guardStmt children span)
  | t => t.malformed

/-- The statements of a block, of a block between `do` and `end`, or behind `else`. -/
def block : Tree → Formed (List Stmt)
  | .node .block [.leaf _, .leaf _, body, .leaf _] _ => stmts body
  | .node .doBlock [.keyword _, .leaf _, .leaf _, body, .leaf _, .keyword _, .leaf _] _ =>
    stmts body
  | .node .elseBranch [.keyword _, .leaf _, .leaf _, body, .leaf _] _ => stmts body
  | t => t.malformed

def stmts : Tree → Formed (List Stmt)
  | .node .stmts [t] _ => do pure [← stmt t]
  | .node .stmts [ts, t] _ => do pure ((← stmts ts) ++ [← stmt t])
  | t => t.malformed

def arms : Tree → Formed (List Arm)
  | .node .arms [t] _ => do pure [← arm t]
  | .node .arms [ts, t] _ => do pure ((← arms ts) ++ [← arm t])
  | t => t.malformed

def arm : Tree → Formed Arm
  | .node .arm [.keyword _, .leaf _, body] span => do pure (.mk none (← stmt body) span)
  | .node .arm [.keyword _, pattern, .leaf _, body] span => do
    let pattern ← literal pattern
    pure (.mk (some pattern) (← stmt body) span)
  | t => t.malformed

end

def modelProps : Tree → Formed (List (Name × Spanned Literal))
  | .node .modelProps [t] _ => do pure [← modelProp t]
  | .node .modelProps [ts, t] _ => do pure ((← modelProps ts) ++ [← modelProp t])
  | t => t.malformed
where
  modelProp : Tree → Formed (Name × Spanned Literal)
    | .node .modelProp [.leaf k, .leaf _, value, .leaf _] _ => do pure (k.word, ← literal value)
    | t => t.malformed

def baseType : Tree → Formed TypeTag
  | .node .baseType [.leaf t] _ => .ok (.named t.text t.span)
  | .node .baseType [.keyword _, .leaf _, element, .leaf _] span => do
    pure (.list (← baseType element) span)
  | t => t.malformed

def typeTag : Tree → Formed TypeTag
  | .node .typeTag [t] _ => baseType t
  | .node .typeTag [t, .leaf _] span => do pure (.optional (← baseType t) span)
  | t => t.malformed

def fields : Tree → Formed (List FieldDef)
  | .node .fields [t] _ => do pure [← field t]
  | .node .fields [ts, t] _ => do pure ((← fields ts) ++ [← field t])
  | t => t.malformed
where
  field : Tree → Formed FieldDef
    | .node .field [.leaf name, .leaf _, type, .leaf _] span => do
      pure ⟨name.word, ← typeTag type, span⟩
    | t => t.malformed

def backoff : Tree → Formed Backoff
  | .node .backoff [.keyword t] _ =>
    .ok (if t.text = "linear" then .linear else if t.text = "exponential" then .exponential
      else .fixed)
  | t => t.malformed

def timeUnit : Tree → Formed Nat
  | .node .timeUnit [.keyword t] _ =>
    .ok (if t.text = "minutes" || t.text = "minute" then 60 else 1)
  | t => t.malformed

/-- Adds the modifiers of a prompt; the last one of each sort counts. -/
def promptMods (prompt : PromptDef) : Tree → Formed PromptDef
  | .node .promptMods [t] _ => promptMod prompt t
  | .node .promptMods [ts, t] _ => do promptMod (← promptMods prompt ts) t
  | t => t.malformed
where
  promptMod (prompt : PromptDef) : Tree → Formed PromptDef
    | .node .promptMod [.keyword _, .leaf name] _ => .ok { prompt with expecting := some name.word }
    | .node .promptMod [.keyword _, .keyword _, .leaf name] _ =>
      .ok { prompt with model := some name.word }
    | t => t.malformed

def promptHead (body : Name) (escalate : Option EscalationClause) (span : Span) : Tree → Formed PromptDef
  | .node .promptHead [.keyword _, .leaf name] _ => .ok ⟨name.word, body, none, none, escalate, span⟩
  | .node .promptHead [.keyword _, .leaf name, mods] _ =>
    promptMods ⟨name.word, body, none, none, escalate, span⟩ mods
  | t => t.malformed

def promptBody : Tree → Formed Name
  | .node .promptBody [.leaf t] _ => .ok t.quoted
  | t => t.malformed

def escalateOp : Tree → Formed EscalationOp
  | .node .escalateOp [.keyword _] _ => .ok .contains
  | .node .escalateOp [.leaf t] span =>
    match t.kind with
    | .eqEq => .ok .equals
    | .tilde => .ok .similar
    | .notEq => .ok .notEquals
    | _ => .error (.malformed .escalateOp span)
  | t => t.malformed

def escalateClause : Tree → Formed EscalationClause
  | .node .escalateClause [.keyword _, .keyword _, op, .leaf text] span => do
    pure ⟨← escalateOp op, text.quoted, span⟩
  | t => t.malformed

/-- Adds the properties of an agent. Names of tools and of other agents add up, else the last property counts. -/
def agentProps (agent : AgentDef) : Tree → Formed AgentDef
  | .node .agentProps [t] _ => agentProp agent t
  | .node .agentProps [ts, t] _ => do agentProp (← agentProps agent ts) t
  | t => t.malformed
where
  agentProp (agent : AgentDef) : Tree → Formed AgentDef
    | .node .agentProp [.keyword what, .leaf t, .leaf _] span =>
      match what.text with
      | "instruction" => .ok { agent with instruction := some t.word }
      | "retry" => .ok { agent with retry := some t.word }
      | "timeout" => .ok { agent with timeout := some t.word }
      | "description" => .ok { agent with description := some t.quoted }
      | _ => .error (.malformed .agentProp span)
    | .node .agentProp [.keyword what, names, .leaf _] span =>
      let names := words .ident names
      match what.text with
      | "tools" => .ok { agent with tools := agent.tools ++ names }
      | "delegate" => .ok { agent with delegate := some (agent.delegate.getD [] ++ names) }
      | "use" => .ok { agent with uses := some (agent.uses.getD [] ++ names) }
      | _ => .error (.malformed .agentProp span)
    | t => t.malformed

def plainAgent (name : Option Name) (span : Span) : AgentDef :=
  ⟨name, none, [], none, none, none, none, none, span⟩

def handlerEvent : Tree → Formed (Spanned HandlerEvent)
  | .node .handlerEvent [.keyword t] span =>
    match t.text with
    | "start" => .ok ⟨.start, span⟩
    | "input" => .ok ⟨.input, span⟩
    | _ => .ok ⟨.output, span⟩
  | .node .handlerEvent [.keyword _, .leaf _, .keyword t] span =>
    .ok ⟨if t.text = "call" then .toolCall else .toolResult, span⟩
  | t => t.malformed

def decl : Tree → Formed Decl
  | .node .importDecl [.keyword _, .leaf path, .leaf _] span => .ok (.importDecl ⟨path.quoted, span⟩)
  | .node .modelDef [.keyword _, .leaf name, .leaf _, .leaf model, .leaf _] span =>
    .ok (.model ⟨name.word, model.quoted, [], span⟩)
  | .node .modelDef [.keyword _, .leaf name, .leaf _, .leaf model, .leaf _, .leaf _, .leaf _, props, .leaf _] span => do
    pure (.model ⟨name.word, model.quoted, ← modelProps props, span⟩)
  | .node .schemaDef [.keyword _, .leaf name, .leaf _, .leaf _, .leaf _, fs, .leaf _] span => do
    pure (.schema ⟨name.word, ← fields fs, span⟩)
  | .node .toolDef [.keyword _, .leaf name, .leaf _, .node .toolKind [.keyword kind] _, .leaf target, .leaf _] span =>
    .ok (.tool ⟨name.word, if kind.text = "mcp" then .mcp else .builtin, target.quoted, span⟩)
  | .node .retryDef [.keyword _, .leaf name, .leaf _, .leaf count, .keyword _, .leaf _] span => do
    pure (.retry ⟨name.word, ⟨← count.integer 0xffffffff count.span, count.span⟩, .fixed, span⟩)
  | .node .retryDef [.keyword _, .leaf name, .leaf _, .leaf count, .keyword _, .leaf _, delay,
      .keyword _, .leaf _] span => do
    let delay ← backoff delay
    pure (.retry ⟨name.word, ⟨← count.integer 0xffffffff count.span, count.span⟩, delay, span⟩)
  | .node .timeoutDef [.keyword _, .leaf name, .leaf _, .leaf count, unit, .leaf _] span => do
    let amount ← count.integer 0xffffffffffffffff count.span
    let factor ← timeUnit unit
    pure (.timeout ⟨name.word, ⟨min (amount * factor) 0xffffffffffffffff, count.span⟩, span⟩)
  | .node .guardrailDef [.keyword _, .leaf name, .leaf _, .keyword _, .leaf pattern, .leaf _] span =>
    .ok (.guardrail ⟨name.word, pattern.quoted, span⟩)
  | .node .promptDef [head, .leaf _, body, .leaf _] span => do
    pure (.prompt (← promptHead (← promptBody body) none span head))
  | .node .promptDef [head, .leaf _, body, .leaf _, .leaf _, clause, .leaf _, .leaf _] span => do
    let clause ← escalateClause clause
    pure (.prompt (← promptHead (← promptBody body) (some clause) span head))
  | .node .agentDef [.keyword _, .leaf name, .leaf _, .leaf _, .leaf _, props, .leaf _] span => do
    pure (.agent (← agentProps (plainAgent (some name.word) span) props))
  | .node .agentDef [.keyword _, .leaf _, .leaf _, .leaf _, props, .leaf _] span => do
    pure (.agent (← agentProps (plainAgent none span) props))
  | .node .flowDef [.keyword _, .leaf name, .leaf _, body] span => do
    pure (.flow ⟨name.word, [], ← block body, span⟩)
  | .node .flowDef [.keyword _, .leaf name, params, .leaf _, body] span => do
    pure (.flow ⟨name.word, words .var params, ← block body, span⟩)
  | .node .handlerDef [.keyword _, event, body] span => do
    let event ← handlerEvent event
    pure (.handler ⟨event, ← block body, span⟩)
  | t => t.malformed

def decls : Tree → Formed (List Decl)
  | .node .items [t] _ => do pure [← item t]
  | .node .items [ts, t] _ => do pure ((← decls ts) ++ [← item t])
  | t => t.malformed
where
  item : Tree → Formed Decl
    | .node .item [t] _ => decl t
    | t => t.malformed

def version : Tree → Formed Name
  | .node .version [.keyword _, .leaf t, .leaf _] _ => .ok t.word
  | t => t.malformed

end Form

/-- The program of a derivation, under the name of its file. -/
def Program.ofTree (name : String) : Tree → Formed Program
  | .node .unit [] _ => .ok ⟨name, none, []⟩
  | .node .unit [.node .version children span] _ => do
    pure ⟨name, some (← Form.version (.node .version children span)), []⟩
  | .node .unit [items] _ => do pure ⟨name, none, ← Form.decls items⟩
  | .node .unit [version, items] _ => do
    let version ← Form.version version
    pure ⟨name, some version, ← Form.decls items⟩
  | t => t.malformed

end Workflow
