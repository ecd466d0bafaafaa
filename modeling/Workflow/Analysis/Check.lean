import Workflow.Analysis.Definitions
import Workflow.Pattern.Compile

/-!
Checks of single definitions. Expressions may read the variables of the scope they stand in; a
statement may add to it, and a block that may not run leaves the scope around it as it was. Names
must be defined, and statements must stand where they are allowed.
-/

namespace Workflow

def builtinGuardrails : List String := ["jailbreak", "pii"]

abbrev Scope := List String

namespace Scope

def insert (s : Scope) (name : String) : Scope := if s.contains name then s else name :: s

def union (s : Scope) (names : List String) : Scope := names.foldl insert s

def inter (s t : Scope) : Scope := s.filter t.contains

end Scope

namespace Analysis

/-- Where a statement stands. -/
structure Context where
  /-- Directly in the body of a flow. -/
  flowTop : Bool := false
  inLoop : Bool := false
  /-- In a handler of this event. -/
  handler : Option HandlerEvent := none

/-- A position inside a block of the statement that stands here. -/
def Context.nested (c : Context) : Context := { c with flowTop := false }

def Context.looped (c : Context) : Context := { c with flowTop := false, inLoop := true }

def resolve (defs : Definitions) (kind : DefKind) (name : Name) : List Problem :=
  if defs.contains kind name.node then []
  else [⟨.undefined kind name.node (defs.names kind), name.span⟩]

def read (scope : Scope) (name : String) (span : Span) : List Problem :=
  if scope.contains name then [] else [⟨.undefinedVariable name, span⟩]

mutual

def checkExpr (scope : Scope) : Expr → List Problem
  | .literal _ _ => []
  | .var name span => read scope name span
  | .property base _ _ => read scope base.node base.span
  | .list items _ => checkExprs scope items
  | .map entries _ => checkEntries scope entries
  | .binary _ left right _ => checkExpr scope left ++ checkExpr scope right
  | .not operand _ => checkExpr scope operand
  | .filter list _ _ _ value _ => checkExpr scope list ++ checkExpr scope value

def checkExprs (scope : Scope) : List Expr → List Problem
  | [] => []
  | e :: rest => checkExpr scope e ++ checkExprs scope rest

def checkEntries (scope : Scope) : List (Name × Expr) → List Problem
  | [] => []
  | (_, e) :: rest => checkExpr scope e ++ checkEntries scope rest

end

/-- Checks what an invocation names and how many arguments it gives. A flow without parameters may be given one. -/
def checkTarget (defs : Definitions) (span : Span) : Invocation → List Problem
  | .agent name _ => resolve defs .agent name
  | .prompt name _ model =>
    resolve defs .prompt name ++ model.toList.flatMap (resolve defs .model)
  | .flow name args =>
    match defs.flowArity? name.node with
    | none => resolve defs .flow name
    | some expected =>
      if expected = args.length || (expected = 0 && args.length = 1) then []
      else [⟨.flowArity name.node expected args.length, span⟩]

def checkEscalate (scope : Scope) (c : Context) (span : Span) : Option (EscalateAction Expr) → List Problem
  | some (.ret value) => checkExpr scope value
  | some .continue => if c.inLoop then [] else [⟨.escalateContinueOutsideLoop, span⟩]
  | _ => []

def checkRun (defs : Definitions) (scope : Scope) (c : Context) (invocation : Invocation)
    (onEscalate : Option (EscalateAction Expr)) (span : Span) : List Problem :=
  checkExprs scope invocation.args ++ checkTarget defs span invocation ++ checkEscalate scope c span onEscalate

def checkGuardPlace (c : Context) (g : GuardAction) : List Problem :=
  match c.handler with
  | none | some .start => [⟨.guardOutsideHandler g.kind, g.span⟩]
  | some event =>
    if g.kind = .retry && event ≠ .output then [⟨.retryOutsideOutput event, g.span⟩]
    else if g.kind = .mask && event = .toolCall then [⟨.maskToolCall, g.span⟩]
    else []

def checkGuard (defs : Definitions) (c : Context) (g : GuardAction) : List Problem :=
  let name := g.guardrail
  let known := builtinGuardrails.contains name.node || defs.contains .guardrail name.node
  let candidates := (defs.names .guardrail ++ builtinGuardrails).mergeSort (fun a b => decide (a ≤ b))
  checkGuardPlace c g ++ if known then [] else [⟨.undefined .guardrail name.node candidates, name.span⟩]

/-- Checks a statement of a parallel block, and tells its target. Only agents may run there. -/
def checkBranch (defs : Definitions) (scope : Scope) (c : Context) : Stmt → List Problem × List String
  | .run target (.agent name args) none span =>
    (checkRun defs scope c (.agent name args) none span, target.toList.map (·.node))
  | other => ([⟨.parallelStatement, other.span⟩], [])

/-- What is known while the statements of a definition are checked. -/
structure Walk where
  scope : Scope
  /-- Whether an `on failure` block has been seen. -/
  failureSeen : Bool := false
  problems : List Problem := []

namespace Walk

def report (w : Walk) (problems : List Problem) : Walk :=
  { w with problems := w.problems ++ problems }

def define (w : Walk) (name : String) : Walk := { w with scope := w.scope.insert name }

def within (w : Walk) (scope : Scope) : Walk := { w with scope := scope }

end Walk

def failureProblems (w : Walk) (c : Context) (span : Span) : List Problem :=
  if !c.flowTop then [⟨.nestedFailure, span⟩]
  else if w.failureSeen then [⟨.duplicateFailure, span⟩]
  else []

mutual

def checkStmt (defs : Definitions) (c : Context) (w : Walk) : Stmt → Walk
  | .assign target value _ => (w.report (checkExpr w.scope value)).define target.node
  | .setPath target _ value _ =>
    w.report (read w.scope target.node target.span ++ checkExpr w.scope value)
  | .run target invocation onEscalate span =>
    let w := w.report (checkRun defs w.scope c invocation onEscalate span)
    w.within (w.scope.union (target.toList.map (·.node)))
  | .parallel body _ =>
    let branches := body.map (checkBranch defs w.scope c.nested)
    (w.report (branches.flatMap (·.1))).within (w.scope.union (branches.flatMap (·.2)))
  | .loop _ body _ => (checkBlock defs c.looped w body).within w.scope
  | .forEach var iterable body _ =>
    let w := w.report (checkExpr w.scope iterable)
    (checkBlock defs c.looped (w.define var.node) body).within w.scope
  | .branch condition thenBody elseBody _ =>
    let w := w.report (checkExpr w.scope condition)
    let scope := w.scope
    let w := checkBlock defs c.nested w thenBody
    let thenScope := w.scope
    let w := checkBlock defs c.nested (w.within scope) elseBody
    -- only names that both branches assign are there behind them
    w.within (if elseBody.isEmpty then scope else scope.union (thenScope.inter w.scope))
  | .select subject arms _ => checkArms defs c (w.report (checkExpr w.scope subject)) arms
  | .failure body span =>
    let scope := w.scope
    let w := { w.report (failureProblems w c span) with failureSeen := true }
    (checkBlock defs c.nested (w.define "error") body).within scope
  | .ret value _ => w.report (value.toList.flatMap (checkExpr w.scope))
  | .continue span => w.report (if c.inLoop then [] else [⟨.continueOutsideLoop, span⟩])
  | .abort message _ => w.report (message.toList.flatMap (checkExpr w.scope))
  | .push value target _ => (w.report (checkExpr w.scope value)).define target.node
  | .log message _ => w.report (checkExpr w.scope message)
  | .guard action => w.report (checkGuard defs c action)

def checkBlock (defs : Definitions) (c : Context) (w : Walk) : List Stmt → Walk
  | [] => w
  | s :: rest => checkBlock defs c (checkStmt defs c w s) rest

/-- Checks the cases of a match, each on its own. -/
def checkArms (defs : Definitions) (c : Context) (w : Walk) : List Arm → Walk
  | [] => w
  | .mk _ body _ :: rest =>
    checkArms defs c ((checkStmt defs c.nested w body).within w.scope) rest

end

mutual

def assigned : Stmt → Scope
  | .assign target _ _ => [target.node]
  | .push _ target _ => [target.node]
  | .run target _ _ _ => target.toList.map (·.node)
  | .parallel body _ => assignedBy body
  | .branch _ thenBody elseBody _ =>
    if elseBody.isEmpty then [] else (assignedBy thenBody).inter (assignedBy elseBody)
  | _ => []

/-- Variables that statements certainly assign. -/
def assignedBy : List Stmt → Scope
  | [] => []
  | s :: rest => (assigned s).union (assignedBy rest)

end

def checkModel (d : ModelDef) : List Problem :=
  d.properties.flatMap fun (key, value) =>
    let valid := match key.node, value.node with
      | "temperature", .int _ | "temperature", .float _ => true
      | "temperature", _ => false
      | "max_tokens", .int n => 0 < n
      | "max_tokens", _ => false
      | _, _ => true
    if valid then [] else [⟨.modelProperty key.node, value.span⟩]

def unknownType? : TypeTag → Option Name
  | .optional inner _ => unknownType? inner
  | .list element _ => unknownType? element
  | .named name span =>
    if ["string", "int", "float", "bool"].contains name then none else some ⟨name, span⟩

def checkFields (defs : Definitions) (seen : List String) : List FieldDef → List Problem
  | [] => []
  | f :: rest =>
    let repeated : List Problem :=
      if seen.contains f.name.node then [⟨.duplicateField f.name.node, f.name.span⟩] else []
    let unknown : List Problem := match unknownType? f.type with
      | none => []
      | some type =>
        if defs.contains .schema type.node then
          [⟨.fieldSchema f.name.node type.node, type.span⟩]
        else [⟨.fieldType f.name.node type.node, type.span⟩]
    repeated ++ unknown ++ checkFields defs (f.name.node :: seen) rest

def checkAgent (defs : Definitions) (a : AgentDef) : List Problem :=
  let instruction := match a.instruction with
    | some prompt => resolve defs .prompt prompt
    | none => [⟨.missingInstruction (a.name.map (·.node)), a.place⟩]
  let delegates := a.delegate.getD []
  let uses := a.uses.getD []
  instruction ++ a.tools.flatMap (resolve defs .tool) ++ a.retry.toList.flatMap (resolve defs .retry)
    ++ a.timeout.toList.flatMap (resolve defs .timeout)
    ++ (delegates ++ uses).flatMap (resolve defs .agent)
    ++ if delegates.isEmpty || uses.isEmpty then []
       else [⟨.mixedComposition a.effectiveName, a.place⟩]

/-- The scope of a flow's parameters, and the parameters that are there twice. -/
def checkParams (globals : Scope) : Scope → List Name → Scope × List Problem
  | scope, [] => (scope, [])
  | scope, p :: rest =>
    let repeated : List Problem :=
      if scope.contains p.node && !globals.contains p.node then
        [⟨.duplicateParameter p.node, p.span⟩]
      else []
    let (scope, problems) := checkParams globals (scope.insert p.node) rest
    (scope, repeated ++ problems)

def checkFlow (defs : Definitions) (globals : Scope) (f : FlowDef) : List Problem :=
  let (scope, problems) := checkParams globals (globals.insert "input") f.params
  problems ++ (checkBlock defs { flowTop := true } { scope := scope } f.body).problems

/-- Checks a handler. At the start no variable is there but the input. -/
def checkHandler (defs : Definitions) (globals : Scope) (h : HandlerDef) : List Problem :=
  let scope := if h.event.node = .start then ["input"] else globals.insert "input"
  (checkBlock defs { handler := some h.event.node } { scope := scope } h.body).problems

def checkDecl (defs : Definitions) (globals : Scope) : Decl → List Problem
  | .importDecl _ | .tool _ => []
  | .model d => checkModel d
  | .schema d => checkFields defs [] d.fields
  | .retry d => if d.attempts.node = 0 then [⟨.noAttempts d.name.node, d.attempts.span⟩] else []
  | .timeout d => if d.seconds.node = 0 then [⟨.noTime d.name.node, d.seconds.span⟩] else []
  | .guardrail d =>
    match Pattern.compile d.pattern.node with
    | .ok _ => []
    | .error fault => [⟨.invalidPattern d.name.node fault.reason, d.pattern.span⟩]
  | .prompt d => d.model.toList.flatMap (resolve defs .model) ++ d.expecting.toList.flatMap (resolve defs .schema)
  | .agent d => checkAgent defs d
  | .flow d => checkFlow defs globals d
  | .handler d => checkHandler defs globals d

end Analysis

end Workflow
