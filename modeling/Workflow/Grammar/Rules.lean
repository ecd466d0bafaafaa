import Workflow.Grammar.Symbol

/-!
The rules of the workflow language. No rule has an empty body, so every phrase covers at least one
token, and no phrase derives itself alone. Lists recur on their left end.
-/

namespace Workflow.Grammar

open Workflow.Symbol

def unitRules : List Rule := [⟨.unit, [sub .items]⟩, ⟨.unit, [sub .version, sub .items]⟩, ⟨.unit, [sub .version]⟩,
  ⟨.version, [word "weave", kind .ident, kind .newline]⟩,
  ⟨.items, [sub .items, sub .item]⟩,
  ⟨.items, [sub .item]⟩,
  ⟨.item, [sub .importDecl]⟩,
  ⟨.item, [sub .modelDef]⟩,
  ⟨.item, [sub .schemaDef]⟩,
  ⟨.item, [sub .toolDef]⟩,
  ⟨.item, [sub .retryDef]⟩,
  ⟨.item, [sub .timeoutDef]⟩,
  ⟨.item, [sub .guardrailDef]⟩,
  ⟨.item, [sub .promptDef]⟩,
  ⟨.item, [sub .agentDef]⟩,
  ⟨.item, [sub .flowDef]⟩,
  ⟨.item, [sub .handlerDef]⟩]

/-- Definitions: imports, models, schemas, tools, policies, guardrails, prompts, agents, flows and
handlers. -/
def definitionRules : List Rule := [⟨.importDecl, [word "import", kind .string, kind .newline]⟩,
  ⟨.modelDef, [word "model", kind .ident, kind .eq, kind .string, kind .newline]⟩,
  ⟨.modelDef, [word "model", kind .ident, kind .eq, kind .string, kind .colon, kind .newline,
    kind .indent, sub .modelProps, kind .dedent]⟩,
  ⟨.modelProps, [sub .modelProps, sub .modelProp]⟩,
  ⟨.modelProps, [sub .modelProp]⟩,
  ⟨.modelProp, [kind .ident, kind .colon, sub .literal, kind .newline]⟩,
  ⟨.schemaDef, [word "schema", kind .ident, kind .colon, kind .newline, kind .indent, sub .fields,
    kind .dedent]⟩,
  ⟨.fields, [sub .fields, sub .field]⟩,
  ⟨.fields, [sub .field]⟩,
  ⟨.field, [kind .ident, kind .colon, sub .typeTag, kind .newline]⟩,
  ⟨.typeTag, [sub .baseType]⟩,
  ⟨.typeTag, [sub .baseType, kind .question]⟩,
  ⟨.baseType, [kind .ident]⟩,
  ⟨.baseType, [word "list", kind .lBracket, sub .baseType, kind .rBracket]⟩,
  ⟨.toolDef, [word "tool", kind .ident, kind .eq, sub .toolKind, kind .string, kind .newline]⟩,
  ⟨.toolKind, [word "builtin"]⟩,
  ⟨.toolKind, [word "mcp"]⟩,
  ⟨.retryDef, [word "retry", kind .ident, kind .eq, kind .int, word "times", kind .newline]⟩,
  ⟨.retryDef, [word "retry", kind .ident, kind .eq, kind .int, word "times", kind .comma,
    sub .backoff, word "backoff", kind .newline]⟩,
  ⟨.backoff, [word "fixed"]⟩,
  ⟨.backoff, [word "linear"]⟩,
  ⟨.backoff, [word "exponential"]⟩,
  ⟨.timeoutDef, [word "timeout", kind .ident, kind .eq, kind .int, sub .timeUnit, kind .newline]⟩,
  ⟨.timeUnit, [word "seconds"]⟩,
  ⟨.timeUnit, [word "second"]⟩,
  ⟨.timeUnit, [word "minutes"]⟩,
  ⟨.timeUnit, [word "minute"]⟩,
  ⟨.guardrailDef, [word "guardrail", kind .ident, kind .eq, word "regex", kind .string,
    kind .newline]⟩,
  ⟨.promptDef, [sub .promptHead, kind .colon, sub .promptBody, kind .newline]⟩,
  ⟨.promptDef, [sub .promptHead, kind .colon, sub .promptBody, kind .newline, kind .indent,
    sub .escalateClause, kind .newline, kind .dedent]⟩,
  ⟨.promptHead, [word "prompt", kind .ident]⟩,
  ⟨.promptHead, [word "prompt", kind .ident, sub .promptMods]⟩,
  ⟨.promptMods, [sub .promptMods, sub .promptMod]⟩,
  ⟨.promptMods, [sub .promptMod]⟩,
  ⟨.promptMod, [word "expecting", kind .ident]⟩,
  ⟨.promptMod, [word "using", word "model", kind .ident]⟩,
  ⟨.promptBody, [kind .string]⟩,
  ⟨.promptBody, [kind .tripleString]⟩,
  ⟨.escalateClause, [word "escalate", word "if", sub .escalateOp, kind .string]⟩,
  ⟨.escalateOp, [kind .eqEq]⟩,
  ⟨.escalateOp, [kind .tilde]⟩,
  ⟨.escalateOp, [kind .notEq]⟩,
  ⟨.escalateOp, [word "contains"]⟩,
  ⟨.agentDef, [word "agent", kind .ident, kind .colon, kind .newline, kind .indent,
    sub .agentProps, kind .dedent]⟩,
  ⟨.agentDef, [word "agent", kind .colon, kind .newline, kind .indent, sub .agentProps,
    kind .dedent]⟩,
  ⟨.agentProps, [sub .agentProps, sub .agentProp]⟩,
  ⟨.agentProps, [sub .agentProp]⟩,
  ⟨.agentProp, [word "instruction", kind .ident, kind .newline]⟩,
  ⟨.agentProp, [word "tools", sub .nameList, kind .newline]⟩,
  ⟨.agentProp, [word "retry", kind .ident, kind .newline]⟩,
  ⟨.agentProp, [word "timeout", kind .ident, kind .newline]⟩,
  ⟨.agentProp, [word "description", kind .string, kind .newline]⟩,
  ⟨.agentProp, [word "delegate", sub .nameList, kind .newline]⟩,
  ⟨.agentProp, [word "use", sub .nameList, kind .newline]⟩,
  ⟨.nameList, [sub .nameList, kind .comma, kind .ident]⟩,
  ⟨.nameList, [kind .ident]⟩,
  ⟨.flowDef, [word "flow", kind .ident, kind .colon, sub .block]⟩,
  ⟨.flowDef, [word "flow", kind .ident, sub .params, kind .colon, sub .block]⟩,
  ⟨.params, [sub .params, kind .var]⟩,
  ⟨.params, [kind .var]⟩,
  ⟨.handlerDef, [word "on", sub .handlerEvent, sub .doBlock]⟩,
  ⟨.handlerEvent, [word "start"]⟩,
  ⟨.handlerEvent, [word "input"]⟩,
  ⟨.handlerEvent, [word "output"]⟩,
  ⟨.handlerEvent, [word "tool", kind .minus, word "call"]⟩,
  ⟨.handlerEvent, [word "tool", kind .minus, word "result"]⟩]

def statementRules : List Rule := [⟨.block, [kind .newline, kind .indent, sub .stmts, kind .dedent]⟩,
  ⟨.doBlock, [word "do", kind .newline, kind .indent, sub .stmts, kind .dedent, word "end",
    kind .newline]⟩,
  ⟨.stmts, [sub .stmts, sub .stmt]⟩,
  ⟨.stmts, [sub .stmt]⟩,
  ⟨.stmt, [sub .simpleStmt]⟩,
  ⟨.stmt, [sub .parallelBlock]⟩,
  ⟨.stmt, [sub .loopBlock]⟩,
  ⟨.stmt, [sub .forBlock]⟩,
  ⟨.stmt, [sub .ifBlock]⟩,
  ⟨.stmt, [sub .matchBlock]⟩,
  ⟨.stmt, [sub .failureBlock]⟩,
  ⟨.stmt, [sub .guardStmt]⟩,
  ⟨.simpleStmt, [sub .assignment]⟩,
  ⟨.simpleStmt, [sub .propertyAssignment]⟩,
  ⟨.simpleStmt, [sub .runStmt]⟩,
  ⟨.simpleStmt, [sub .returnStmt]⟩,
  ⟨.simpleStmt, [sub .continueStmt]⟩,
  ⟨.simpleStmt, [sub .abortStmt]⟩,
  ⟨.simpleStmt, [sub .pushStmt]⟩,
  ⟨.simpleStmt, [sub .logStmt]⟩,
  ⟨.assignment, [kind .var, kind .eq, sub .expr, kind .newline]⟩,
  ⟨.propertyAssignment, [kind .var, sub .propPath, kind .eq, sub .expr, kind .newline]⟩,
  ⟨.propPath, [sub .propPath, kind .dot, kind .ident]⟩,
  ⟨.propPath, [kind .dot, kind .ident]⟩,
  ⟨.runStmt, [sub .invocation, kind .newline]⟩,
  ⟨.runStmt, [sub .invocation, sub .escalateHandler, kind .newline]⟩,
  ⟨.runStmt, [kind .var, kind .eq, sub .invocation, kind .newline]⟩,
  ⟨.runStmt, [kind .var, kind .eq, sub .invocation, sub .escalateHandler, kind .newline]⟩,
  ⟨.invocation, [word "run", word "agent", kind .ident]⟩,
  ⟨.invocation, [word "run", word "agent", kind .ident, word "with", sub .args]⟩,
  ⟨.invocation, [word "call", word "llm", kind .ident]⟩,
  ⟨.invocation, [word "call", word "llm", kind .ident, word "with", sub .args]⟩,
  ⟨.invocation, [word "call", word "llm", kind .ident, sub .modelOverride]⟩,
  ⟨.invocation, [word "call", word "llm", kind .ident, word "with", sub .args,
    sub .modelOverride]⟩,
  ⟨.invocation, [word "run", word "flow", kind .ident]⟩,
  ⟨.invocation, [word "run", word "flow", kind .ident, word "with", sub .args]⟩,
  ⟨.modelOverride, [word "using", word "model", kind .ident]⟩,
  ⟨.args, [sub .args, kind .comma, sub .expr]⟩,
  ⟨.args, [sub .expr]⟩,
  ⟨.escalateHandler, [word "on", word "escalate", sub .escalateAction]⟩,
  ⟨.escalateAction, [word "return", sub .expr]⟩,
  ⟨.escalateAction, [word "continue"]⟩,
  ⟨.escalateAction, [word "abort"]⟩,
  ⟨.parallelBlock, [word "parallel", sub .doBlock]⟩,
  ⟨.loopBlock, [word "loop", sub .doBlock]⟩,
  ⟨.loopBlock, [word "loop", word "max", kind .int, sub .doBlock]⟩,
  ⟨.forBlock, [word "for", kind .var, word "in", sub .expr, sub .doBlock]⟩,
  ⟨.ifBlock, [word "if", sub .expr, word "do", kind .newline, kind .indent, sub .stmts,
    kind .dedent, word "end", kind .newline]⟩,
  ⟨.ifBlock, [word "if", sub .expr, word "do", kind .newline, kind .indent, sub .stmts,
    kind .dedent, sub .elseBranch, word "end", kind .newline]⟩,
  ⟨.elseBranch, [word "else", kind .newline, kind .indent, sub .stmts, kind .dedent]⟩,
  ⟨.matchBlock, [word "match", sub .expr, word "do", kind .newline, kind .indent, sub .arms,
    kind .dedent, word "end", kind .newline]⟩,
  ⟨.arms, [sub .arms, sub .arm]⟩,
  ⟨.arms, [sub .arm]⟩,
  ⟨.arm, [word "when", sub .literal, kind .arrow, sub .simpleStmt]⟩,
  ⟨.arm, [word "else", kind .arrow, sub .simpleStmt]⟩,
  ⟨.failureBlock, [word "on", word "failure", sub .doBlock]⟩,
  ⟨.returnStmt, [word "return", sub .expr, kind .newline]⟩,
  ⟨.returnStmt, [word "return", kind .newline]⟩,
  ⟨.continueStmt, [word "continue", kind .newline]⟩,
  ⟨.abortStmt, [word "abort", kind .newline]⟩,
  ⟨.abortStmt, [word "abort", sub .expr, kind .newline]⟩,
  ⟨.pushStmt, [word "push", sub .expr, word "to", kind .var, kind .newline]⟩,
  ⟨.logStmt, [word "log", sub .expr, kind .newline]⟩,
  ⟨.guardStmt, [word "mask", kind .ident, kind .newline]⟩,
  ⟨.guardStmt, [word "block", word "if", kind .ident, kind .newline]⟩,
  ⟨.guardStmt, [word "warn", word "if", kind .ident, kind .newline]⟩,
  ⟨.guardStmt, [word "retry", word "with", kind .string, word "if", kind .ident, kind .newline]⟩]

def expressionRules : List Rule := [⟨.expr, [sub .orExpr]⟩, ⟨.orExpr, [sub .orExpr, word "or", sub .andExpr]⟩,
  ⟨.orExpr, [sub .andExpr]⟩,
  ⟨.andExpr, [sub .andExpr, word "and", sub .notExpr]⟩,
  ⟨.andExpr, [sub .notExpr]⟩,
  ⟨.notExpr, [word "not", sub .notExpr]⟩,
  ⟨.notExpr, [sub .cmpExpr]⟩,
  ⟨.cmpExpr, [sub .addExpr, sub .cmpOp, sub .addExpr]⟩,
  ⟨.cmpExpr, [sub .addExpr]⟩,
  ⟨.cmpOp, [kind .eqEq]⟩,
  ⟨.cmpOp, [kind .notEq]⟩,
  ⟨.cmpOp, [kind .lt]⟩,
  ⟨.cmpOp, [kind .ltEq]⟩,
  ⟨.cmpOp, [kind .gt]⟩,
  ⟨.cmpOp, [kind .gtEq]⟩,
  ⟨.cmpOp, [kind .tilde]⟩,
  ⟨.cmpOp, [word "contains"]⟩,
  ⟨.addExpr, [sub .addExpr, kind .plus, sub .atom]⟩,
  ⟨.addExpr, [sub .addExpr, kind .minus, sub .atom]⟩,
  ⟨.addExpr, [sub .atom]⟩,
  ⟨.atom, [sub .literal]⟩,
  ⟨.atom, [sub .varRef]⟩,
  ⟨.atom, [sub .listExpr]⟩,
  ⟨.atom, [sub .mapExpr]⟩,
  ⟨.atom, [sub .filterExpr]⟩,
  ⟨.atom, [kind .lParen, sub .expr, kind .rParen]⟩,
  ⟨.varRef, [kind .var, sub .propPath]⟩,
  ⟨.varRef, [kind .var]⟩,
  ⟨.literal, [kind .string]⟩,
  ⟨.literal, [kind .tripleString]⟩,
  ⟨.literal, [kind .int]⟩,
  ⟨.literal, [kind .float]⟩,
  ⟨.literal, [word "true"]⟩,
  ⟨.literal, [word "false"]⟩,
  ⟨.literal, [word "null"]⟩,
  ⟨.literal, [kind .minus, kind .int]⟩,
  ⟨.literal, [kind .minus, kind .float]⟩,
  ⟨.listExpr, [kind .lBracket, kind .rBracket]⟩,
  ⟨.listExpr, [kind .lBracket, sub .elems, kind .rBracket]⟩,
  ⟨.listExpr, [kind .lBracket, sub .elems, kind .comma, kind .rBracket]⟩,
  ⟨.elems, [sub .elems, kind .comma, sub .expr]⟩,
  ⟨.elems, [sub .expr]⟩,
  ⟨.mapExpr, [kind .lBrace, kind .rBrace]⟩,
  ⟨.mapExpr, [kind .lBrace, sub .entries, kind .rBrace]⟩,
  ⟨.mapExpr, [kind .lBrace, sub .entries, kind .comma, kind .rBrace]⟩,
  ⟨.entries, [sub .entries, kind .comma, sub .entry]⟩,
  ⟨.entries, [sub .entry]⟩,
  ⟨.entry, [sub .mapKey, kind .colon, sub .expr]⟩,
  ⟨.mapKey, [kind .ident]⟩,
  ⟨.mapKey, [kind .string]⟩,
  ⟨.filterExpr, [word "filter", sub .atom, word "where", sub .implicitProp, sub .cmpOp,
    sub .atom]⟩,
  ⟨.implicitProp, [sub .propPath]⟩]

def rules : List Rule := unitRules ++ definitionRules ++ statementRules ++ expressionRules

end Workflow.Grammar
