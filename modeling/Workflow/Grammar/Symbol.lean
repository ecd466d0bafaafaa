import Workflow.Token.Basic

/-!
Symbols and rules of the workflow grammar. A terminal matches tokens, either every token of a kind
or the identifiers with one spelling: a keyword is an identifier that some rule asks for by name.
-/

namespace Workflow

/-- Phrases of the language. -/
inductive Nonterminal where
  | unit
  | version
  | items
  | item
  | importDecl
  | modelDef
  | modelProps
  | modelProp
  | schemaDef
  | fields
  | field
  | typeTag
  | baseType
  | toolDef
  | toolKind
  | retryDef
  | backoff
  | timeoutDef
  | timeUnit
  | guardrailDef
  | promptDef
  | promptHead
  | promptMods
  | promptMod
  | promptBody
  | escalateClause
  | escalateOp
  | agentDef
  | agentProps
  | agentProp
  | nameList
  | flowDef
  | params
  | handlerDef
  | handlerEvent
  | block
  | doBlock
  | stmts
  | stmt
  | simpleStmt
  | assignment
  | propertyAssignment
  | propPath
  | runStmt
  | invocation
  | modelOverride
  | args
  | escalateHandler
  | escalateAction
  | parallelBlock
  | loopBlock
  | forBlock
  | ifBlock
  | elseBranch
  | matchBlock
  | arms
  | arm
  | failureBlock
  | returnStmt
  | continueStmt
  | abortStmt
  | pushStmt
  | logStmt
  | guardStmt
  | expr
  | orExpr
  | andExpr
  | notExpr
  | cmpExpr
  | cmpOp
  | addExpr
  | atom
  | varRef
  | literal
  | listExpr
  | elems
  | mapExpr
  | entries
  | entry
  | mapKey
  | filterExpr
  | implicitProp
  deriving DecidableEq, Repr, Hashable

def Nonterminal.name : Nonterminal → String
  | unit => "Unit"
  | version => "Version"
  | items => "Items"
  | item => "Item"
  | importDecl => "Import"
  | modelDef => "ModelDef"
  | modelProps => "ModelProps"
  | modelProp => "ModelProp"
  | schemaDef => "SchemaDef"
  | fields => "Fields"
  | field => "Field"
  | typeTag => "TypeTag"
  | baseType => "BaseType"
  | toolDef => "ToolDef"
  | toolKind => "ToolKind"
  | retryDef => "RetryDef"
  | backoff => "Backoff"
  | timeoutDef => "TimeoutDef"
  | timeUnit => "TimeUnit"
  | guardrailDef => "GuardrailDef"
  | promptDef => "PromptDef"
  | promptHead => "PromptHead"
  | promptMods => "PromptMods"
  | promptMod => "PromptMod"
  | promptBody => "PromptBody"
  | escalateClause => "EscalateClause"
  | escalateOp => "EscalateOp"
  | agentDef => "AgentDef"
  | agentProps => "AgentProps"
  | agentProp => "AgentProp"
  | nameList => "NameList"
  | flowDef => "FlowDef"
  | params => "Params"
  | handlerDef => "HandlerDef"
  | handlerEvent => "HandlerEvent"
  | block => "Block"
  | doBlock => "DoBlock"
  | stmts => "Stmts"
  | stmt => "Stmt"
  | simpleStmt => "SimpleStmt"
  | assignment => "Assignment"
  | propertyAssignment => "PropertyAssignment"
  | propPath => "PropPath"
  | runStmt => "RunStmt"
  | invocation => "Invocation"
  | modelOverride => "ModelOverride"
  | args => "Args"
  | escalateHandler => "EscalateHandler"
  | escalateAction => "EscalateAction"
  | parallelBlock => "ParallelBlock"
  | loopBlock => "LoopBlock"
  | forBlock => "ForBlock"
  | ifBlock => "IfBlock"
  | elseBranch => "ElseBranch"
  | matchBlock => "MatchBlock"
  | arms => "Arms"
  | arm => "Arm"
  | failureBlock => "FailureBlock"
  | returnStmt => "ReturnStmt"
  | continueStmt => "ContinueStmt"
  | abortStmt => "AbortStmt"
  | pushStmt => "PushStmt"
  | logStmt => "LogStmt"
  | guardStmt => "GuardStmt"
  | expr => "Expr"
  | orExpr => "OrExpr"
  | andExpr => "AndExpr"
  | notExpr => "NotExpr"
  | cmpExpr => "CmpExpr"
  | cmpOp => "CmpOp"
  | addExpr => "AddExpr"
  | atom => "Atom"
  | varRef => "VarRef"
  | literal => "Literal"
  | listExpr => "ListExpr"
  | elems => "Elems"
  | mapExpr => "MapExpr"
  | entries => "Entries"
  | entry => "Entry"
  | mapKey => "MapKey"
  | filterExpr => "FilterExpr"
  | implicitProp => "ImplicitProp"

/-- What a rule asks of one token. -/
inductive Terminal where
  | kind (k : TokenKind)
  | word (text : String)
  deriving DecidableEq, Repr

namespace Terminal

def accepts : Terminal → Token → Bool
  | kind k, t => t.kind = k
  | word text, t => t.kind = .ident && t.text = text

def describe : Terminal → String
  | kind k => k.describe
  | word text => "'" ++ text ++ "'"

end Terminal

/-- A place in a rule. -/
inductive Symbol where
  | terminal (t : Terminal)
  | sub (phrase : Nonterminal)
  deriving DecidableEq, Repr

namespace Symbol

def kind (k : TokenKind) : Symbol := terminal (.kind k)

def word (text : String) : Symbol := terminal (.word text)

end Symbol

/-- One way to form a phrase. -/
structure Rule where
  head : Nonterminal
  body : List Symbol
  deriving DecidableEq, Repr

end Workflow
