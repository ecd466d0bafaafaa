import Mathlib.Tactic.Lemma
import Workflow.Program.OfTree

/-!
How programs are written. `Part.Consists` says of every part of a program of what parts it is made up, in order:
words, signs, names, constants, and smaller parts. `Written` follows this down to tokens. No derivation is
mentioned, and nothing about how a part is found among tokens.
-/

namespace Workflow

/-- How tightly an expression holds together; each kind is made up of tighter ones. -/
inductive Tightness where
  | or
  | and
  | not
  | comparison
  | sum
  | atom

def Tightness.next : Tightness → Tightness
  | or => and
  | and => not
  | not => comparison
  | comparison => sum
  | sum | atom => atom

/-- The largest integer of 64 bits with a sign, 2⁶³ - 1. -/
def literalLimit : Nat := 0x7fffffffffffffff

/-- The largest integer of 32 bits without a sign, 2³² - 1. -/
def countLimit : Nat := 0xffffffff

/-- The largest integer of 64 bits without a sign, 2⁶⁴ - 1. -/
def durationLimit : Nat := 0xffffffffffffffff

/-- What some tokens of a source stand for. -/
inductive Part where
  /-- A word of the language. -/
  | word (text : String)
  /-- A sign, the end of a line, or an end of a block. -/
  | mark (kind : TokenKind)
  | name (n : Name)
  | var (n : Name)
  | text (s : Name)
  /-- A text of several lines. -/
  | longText (s : Name)
  | integer (limit : Nat) (n : Spanned Nat)
  | decimal (x : Float)
  | literal (l : Literal)
  | comparison (op : BinOp)
  /-- Names that lead to a property, with a dot before each. -/
  | path (names : List Name)
  | expr (tightness : Tightness) (e : Expr)
  | exprs (es : List Expr)
  | key (k : Name)
  | entry (e : Name × Expr)
  | entries (es : List (Name × Expr))
  | override (model : Name)
  | invocation (i : Invocation)
  | escalateAction (a : EscalateAction Expr)
  | escalateHandler (a : EscalateAction Expr)
  /-- A statement on one line, as an arm may have it. -/
  | simple (s : Stmt)
  | stmt (s : Stmt)
  | stmts (ss : List Stmt)
  /-- Statements below a colon. -/
  | block (ss : List Stmt)
  /-- Statements between `do` and `end`. -/
  | doBlock (ss : List Stmt)
  | elseBranch (ss : List Stmt)
  | arm (a : Arm)
  | arms (as : List Arm)
  | names (ns : List Name)
  | params (ns : List Name)
  | modelProp (p : Name × Spanned Literal)
  | modelProps (ps : List (Name × Spanned Literal))
  | baseType (t : TypeTag)
  | type (t : TypeTag)
  | field (f : FieldDef)
  | fields (fs : List FieldDef)
  | toolKind (k : ToolKind)
  | backoff (b : Backoff)
  /-- A unit of time, of so many seconds. -/
  | timeUnit (seconds : Nat)
  | promptText (s : Name)
  /-- A modifier that makes one prompt of another. -/
  | promptMod (before after : PromptDef)
  | promptMods (before after : PromptDef)
  | promptHead (p : PromptDef)
  | escalateOp (op : EscalationOp)
  | escalateClause (c : EscalationClause)
  /-- A property that makes one agent of another. -/
  | agentProp (before after : AgentDef)
  | agentProps (before after : AgentDef)
  | event (e : HandlerEvent)
  | decl (d : Decl)
  | decls (ds : List Decl)
  | version (n : Name)
  | source (version : Option Name) (ds : List Decl)

namespace Part

def commas (parts : List Part) : List Part := parts.intersperse (.mark .comma)

lemma commas_snoc (h : parts ≠ []) (p : Part) : commas (parts ++ [p]) = commas parts ++ [.mark .comma, p] := by
  induction parts with
  | nil => exact absurd rfl h
  | cons q parts ih =>
    cases parts with
    | nil => rfl
    | cons r parts =>
      have hrest := ih (List.cons_ne_nil _ _)
      simp only [commas, List.cons_append, List.intersperse_cons_cons] at hrest ⊢
      rw [hrest]

/-- The end of a line behind which a block begins, its statements and its end. -/
def indented (parts : List Part) : List Part := [Part.mark .newline, .mark .indent] ++ parts ++ [.mark .dedent]

/-- A part is made up of parts, in this order. -/
inductive Consists : Part → List Part → Prop where
  -- constants
  | string {s} : Consists (.literal (.string s.node)) [.text s]
  | longString {s} : Consists (.literal (.string s.node)) [.longText s]
  | int {n} : Consists (.literal (.int n.node)) [.integer literalLimit n]
  | negative {n} : Consists (.literal (.int (-n.node))) [.mark .minus, .integer literalLimit n]
  | float {x} : Consists (.literal (.float x)) [.decimal x]
  | negativeFloat {x} : Consists (.literal (.float (-x))) [.mark .minus, .decimal x]
  | true : Consists (.literal (.bool Bool.true)) [.word "true"]
  | false : Consists (.literal (.bool Bool.false)) [.word "false"]
  | null : Consists (.literal .null) [.word "null"]
  -- expressions
  | eq : Consists (.comparison .eq) [.mark .eqEq]
  | notEq : Consists (.comparison .notEq) [.mark .notEq]
  | lt : Consists (.comparison .lt) [.mark .lt]
  | ltEq : Consists (.comparison .ltEq) [.mark .ltEq]
  | gt : Consists (.comparison .gt) [.mark .gt]
  | gtEq : Consists (.comparison .gtEq) [.mark .gtEq]
  | similar : Consists (.comparison .similar) [.mark .tilde]
  | contains : Consists (.comparison .contains) [.word "contains"]
  | path {names} : Consists (.path names) (names.flatMap fun n => [.mark .dot, .name n])
  | tighter {t e} : Consists (.expr t e) [.expr t.next e]
  | or {l r span} : Consists (.expr .or (.binary .or l r span)) [.expr .or l, .word "or", .expr .and r]
  | and {l r span} : Consists (.expr .and (.binary .and l r span)) [.expr .and l, .word "and", .expr .not r]
  | not {e span} : Consists (.expr .not (.not e span)) [.word "not", .expr .not e]
  | compare {op l r span} :
      Consists (.expr .comparison (.binary op l r span)) [.expr .sum l, .comparison op, .expr .sum r]
  | add {l r span} : Consists (.expr .sum (.binary .add l r span)) [.expr .sum l, .mark .plus, .expr .atom r]
  | sub {l r span} : Consists (.expr .sum (.binary .sub l r span)) [.expr .sum l, .mark .minus, .expr .atom r]
  | group {e} : Consists (.expr .atom e) [.mark .lParen, .expr .or e, .mark .rParen]
  | constant {l span} : Consists (.expr .atom (.literal l span)) [.literal l]
  | variable_ {v span} : Consists (.expr .atom (.var v.node span)) [.var v]
  | property {v names span} : Consists (.expr .atom (.property v names span)) [.var v, .path names]
  | exprs {es} : Consists (.exprs es) (commas (es.map (.expr .or)))
  | list {es span} : Consists (.expr .atom (.list es span)) [.mark .lBracket, .exprs es, .mark .rBracket]
  | listComma {es span} :
      Consists (.expr .atom (.list es span)) [.mark .lBracket, .exprs es, .mark .comma, .mark .rBracket]
  | keyName {n} : Consists (.key n) [.name n]
  | keyText {s} : Consists (.key s) [.text s]
  | entry {k e} : Consists (.entry (k, e)) [.key k, .mark .colon, .expr .or e]
  | entries {es} : Consists (.entries es) (commas (es.map .entry))
  | map {es span} : Consists (.expr .atom (.map es span)) [.mark .lBrace, .entries es, .mark .rBrace]
  | mapComma {es span} : Consists (.expr .atom (.map es span)) [.mark .lBrace, .entries es, .mark .comma, .mark .rBrace]
  | filter {list value names op pathSpan span} : Consists (.expr .atom (.filter list names pathSpan op value span))
        [.word "filter", .expr .atom list, .word "where", .path names, .comparison op, .expr .atom value]
  -- calls
  | override {model} : Consists (.override model) [.word "using", .word "model", .name model]
  | agentCall {n} : Consists (.invocation (.agent n [])) [.word "run", .word "agent", .name n]
  | agentCallWith {n args} : Consists (.invocation (.agent n args))
      [.word "run", .word "agent", .name n, .word "with", .exprs args]
  | flowCall {n} : Consists (.invocation (.flow n [])) [.word "run", .word "flow", .name n]
  | flowCallWith {n args} : Consists (.invocation (.flow n args))
      [.word "run", .word "flow", .name n, .word "with", .exprs args]
  | promptCall {n} : Consists (.invocation (.prompt n [] none)) [.word "call", .word "llm", .name n]
  | promptCallWith {n args} : Consists (.invocation (.prompt n args none))
      [.word "call", .word "llm", .name n, .word "with", .exprs args]
  | promptCallOver {n model} : Consists (.invocation (.prompt n [] (some model)))
      [.word "call", .word "llm", .name n, .override model]
  | promptCallWithOver {n model args} : Consists (.invocation (.prompt n args (some model)))
        [.word "call", .word "llm", .name n, .word "with", .exprs args, .override model]
  | escalateReturn {e} : Consists (.escalateAction (.ret e)) [.word "return", .expr .or e]
  | escalateContinue : Consists (.escalateAction .continue) [.word "continue"]
  | escalateAbort : Consists (.escalateAction .abort) [.word "abort"]
  | escalateHandler {a} : Consists (.escalateHandler a) [.word "on", .word "escalate", .escalateAction a]
  -- statements on one line
  | assign {v e span} : Consists (.simple (.assign v e span)) [.var v, .mark .eq, .expr .or e, .mark .newline]
  | setPath {v names e span} : Consists (.simple (.setPath v names e span))
        [.var v, .path names, .mark .eq, .expr .or e, .mark .newline]
  | run {i span} : Consists (.simple (.run none i none span)) [.invocation i, .mark .newline]
  | runOn {i a span} :
      Consists (.simple (.run none i (some a) span)) [.invocation i, .escalateHandler a, .mark .newline]
  | runInto {v i span} :
      Consists (.simple (.run (some v) i none span)) [.var v, .mark .eq, .invocation i, .mark .newline]
  | runIntoOn {v i a span} : Consists (.simple (.run (some v) i (some a) span))
        [.var v, .mark .eq, .invocation i, .escalateHandler a, .mark .newline]
  | ret {span} : Consists (.simple (.ret none span)) [.word "return", .mark .newline]
  | retValue {e span} : Consists (.simple (.ret (some e) span)) [.word "return", .expr .or e, .mark .newline]
  | continue_ {span} : Consists (.simple (.continue span)) [.word "continue", .mark .newline]
  | abort {span} : Consists (.simple (.abort none span)) [.word "abort", .mark .newline]
  | abortWith {e span} : Consists (.simple (.abort (some e) span)) [.word "abort", .expr .or e, .mark .newline]
  | push {e v span} : Consists (.simple (.push e v span))
      [.word "push", .expr .or e, .word "to", .var v, .mark .newline]
  | log {e span} : Consists (.simple (.log e span)) [.word "log", .expr .or e, .mark .newline]
  -- other statements
  | simple {s} : Consists (.stmt s) [.simple s]
  | stmts {ss} : Consists (.stmts ss) (ss.map .stmt)
  | block {ss} : Consists (.block ss) (indented [.stmts ss])
  | doBlock {ss} : Consists (.doBlock ss) (.word "do" :: indented [.stmts ss] ++ [.word "end", .mark .newline])
  | elseBranch {ss} : Consists (.elseBranch ss) (.word "else" :: indented [.stmts ss])
  | parallel {ss span} : Consists (.stmt (.parallel ss span)) [.word "parallel", .doBlock ss]
  | loop {ss span} : Consists (.stmt (.loop none ss span)) [.word "loop", .doBlock ss]
  | loopMax {n ss span} : Consists (.stmt (.loop (some n) ss span))
      [.word "loop", .word "max", .integer countLimit n, .doBlock ss]
  | forEach {v e ss span} :
      Consists (.stmt (.forEach v e ss span)) [.word "for", .var v, .word "in", .expr .or e, .doBlock ss]
  | branch {e ss span} : Consists (.stmt (.branch e ss [] span))
      ([Part.word "if", .expr .or e, .word "do"] ++ indented [.stmts ss] ++ [.word "end", .mark .newline])
  | branchElse {e ss others span} :
      Consists (.stmt (.branch e ss others span)) ([Part.word "if", .expr .or e, .word "do"]
        ++ indented [.stmts ss] ++ [.elseBranch others, .word "end", .mark .newline])
  | select {e as span} : Consists (.stmt (.select e as span))
      ([Part.word "match", .expr .or e, .word "do"] ++ indented [.arms as] ++ [.word "end", .mark .newline])
  | arms {as} : Consists (.arms as) (as.map .arm)
  | arm {l s span} : Consists (.arm (.mk (some l) s span)) [.word "when", .literal l.node, .mark .arrow, .simple s]
  | armElse {s span} : Consists (.arm (.mk none s span)) [.word "else", .mark .arrow, .simple s]
  | failure {ss span} : Consists (.stmt (.failure ss span)) [.word "on", .word "failure", .doBlock ss]
  | mask {n span} : Consists (.stmt (.guard ⟨.mask, n, none, span⟩)) [.word "mask", .name n, .mark .newline]
  | blockIf {n span} :
      Consists (.stmt (.guard ⟨.block, n, none, span⟩)) [.word "block", .word "if", .name n, .mark .newline]
  | warnIf {n span} :
      Consists (.stmt (.guard ⟨.warn, n, none, span⟩)) [.word "warn", .word "if", .name n, .mark .newline]
  | retryWith {n s span} : Consists (.stmt (.guard ⟨.retry, n, some s, span⟩))
      [.word "retry", .word "with", .text s, .word "if", .name n, .mark .newline]
  -- definitions
  | names {ns} : Consists (.names ns) (commas (ns.map .name))
  | params {ns} : Consists (.params ns) (ns.map .var)
  | importDecl {path span} : Consists (.decl (.importDecl ⟨path, span⟩)) [.word "import", .text path, .mark .newline]
  | modelProp {k l} : Consists (.modelProp (k, l)) [.name k, .mark .colon, .literal l.node, .mark .newline]
  | modelProps {ps} : Consists (.modelProps ps) (ps.map .modelProp)
  | model {n s span} : Consists (.decl (.model ⟨n, s, [], span⟩))
      [.word "model", .name n, .mark .eq, .text s, .mark .newline]
  | modelWith {n s ps span} : Consists (.decl (.model ⟨n, s, ps, span⟩))
        ([Part.word "model", .name n, .mark .eq, .text s, .mark .colon] ++ indented [.modelProps ps])
  | namedType {n} : Consists (.baseType (.named n.node n.span)) [.name n]
  | listType {t span} :
      Consists (.baseType (.list t span)) [.word "list", .mark .lBracket, .baseType t, .mark .rBracket]
  | plainType {t} : Consists (.type t) [.baseType t]
  | optionalType {t span} : Consists (.type (.optional t span)) [.baseType t, .mark .question]
  | field {n t span} : Consists (.field ⟨n, t, span⟩) [.name n, .mark .colon, .type t, .mark .newline]
  | fields {fs} : Consists (.fields fs) (fs.map .field)
  | schema {n fs span} : Consists (.decl (.schema ⟨n, fs, span⟩))
      ([Part.word "schema", .name n, .mark .colon] ++ indented [.fields fs])
  | builtin : Consists (.toolKind .builtin) [.word "builtin"]
  | mcp : Consists (.toolKind .mcp) [.word "mcp"]
  | tool {n s k span} : Consists (.decl (.tool ⟨n, k, s, span⟩))
      [.word "tool", .name n, .mark .eq, .toolKind k, .text s, .mark .newline]
  | fixed : Consists (.backoff .fixed) [.word "fixed"]
  | linear : Consists (.backoff .linear) [.word "linear"]
  | exponential : Consists (.backoff .exponential) [.word "exponential"]
  | retry {n k span} : Consists (.decl (.retry ⟨n, k, .fixed, span⟩))
        [.word "retry", .name n, .mark .eq, .integer countLimit k, .word "times", .mark .newline]
  | retryBackoff {n k b span} : Consists (.decl (.retry ⟨n, k, b, span⟩))
        [.word "retry", .name n, .mark .eq, .integer countLimit k, .word "times", .mark .comma,
          .backoff b, .word "backoff", .mark .newline]
  | seconds : Consists (.timeUnit 1) [.word "seconds"]
  | second : Consists (.timeUnit 1) [.word "second"]
  | minutes : Consists (.timeUnit 60) [.word "minutes"]
  | minute : Consists (.timeUnit 60) [.word "minute"]
  | timeout {n k seconds span} : Consists (.decl (.timeout ⟨n, ⟨min (k.node * seconds) durationLimit, k.span⟩, span⟩))
        [.word "timeout", .name n, .mark .eq, .integer durationLimit k, .timeUnit seconds, .mark .newline]
  | guardrail {n s span} : Consists (.decl (.guardrail ⟨n, s, span⟩))
      [.word "guardrail", .name n, .mark .eq, .word "regex", .text s, .mark .newline]
  | promptText {s} : Consists (.promptText s) [.text s]
  | promptLongText {s} : Consists (.promptText s) [.longText s]
  | expecting {p n} : Consists (.promptMod p { p with expecting := some n }) [.word "expecting", .name n]
  | usingModel {p n} : Consists (.promptMod p { p with model := some n }) [.word "using", .word "model", .name n]
  | promptModsOne {p q} : Consists (.promptMods p q) [.promptMod p q]
  | promptMods {p q r} : Consists (.promptMods p r) [.promptMods p q, .promptMod q r]
  | promptHead {n s c span} : Consists (.promptHead ⟨n, s, none, none, c, span⟩) [.word "prompt", .name n]
  | promptHeadWith {n s c span p} :
      Consists (.promptHead p) [.word "prompt", .name n, .promptMods ⟨n, s, none, none, c, span⟩ p]
  | escalateEquals : Consists (.escalateOp .equals) [.mark .eqEq]
  | escalateSimilar : Consists (.escalateOp .similar) [.mark .tilde]
  | escalateNotEquals : Consists (.escalateOp .notEquals) [.mark .notEq]
  | escalateContains : Consists (.escalateOp .contains) [.word "contains"]
  | escalateClause {op s span} :
      Consists (.escalateClause ⟨op, s, span⟩) [.word "escalate", .word "if", .escalateOp op, .text s]
  | prompt {p} (plain : p.escalate = none) :
      Consists (.decl (.prompt p)) [.promptHead p, .mark .colon, .promptText p.body, .mark .newline]
  | promptEscalating {p c} (escalates : p.escalate = some c) :
      Consists (.decl (.prompt p)) ([Part.promptHead p, .mark .colon, .promptText p.body]
        ++ indented [.escalateClause c, .mark .newline])
  | instruction {a n} : Consists (.agentProp a { a with instruction := some n })
      [.word "instruction", .name n, .mark .newline]
  | agentRetry {a n} : Consists (.agentProp a { a with retry := some n }) [.word "retry", .name n, .mark .newline]
  | agentTimeout {a n} : Consists (.agentProp a { a with timeout := some n }) [.word "timeout", .name n, .mark .newline]
  | description {a s} : Consists (.agentProp a { a with description := some s })
      [.word "description", .text s, .mark .newline]
  | tools {a ns} : Consists (.agentProp a { a with tools := a.tools ++ ns }) [.word "tools", .names ns, .mark .newline]
  | delegate {a ns} : Consists (.agentProp a { a with delegate := some (a.delegate.getD [] ++ ns) })
        [.word "delegate", .names ns, .mark .newline]
  | use {a ns} : Consists (.agentProp a { a with uses := some (a.uses.getD [] ++ ns) })
        [.word "use", .names ns, .mark .newline]
  | agentPropsOne {a b} : Consists (.agentProps a b) [.agentProp a b]
  | agentProps {a b c} : Consists (.agentProps a c) [.agentProps a b, .agentProp b c]
  | agent {n a span} : Consists (.decl (.agent a)) ([Part.word "agent", .name n, .mark .colon]
        ++ indented [.agentProps ⟨some n, none, [], none, none, none, none, none, span⟩ a])
  | startAgent {a span} : Consists (.decl (.agent a)) ([Part.word "agent", .mark .colon]
      ++ indented [.agentProps ⟨none, none, [], none, none, none, none, none, span⟩ a])
  | flow {n ss span} : Consists (.decl (.flow ⟨n, [], ss, span⟩)) [.word "flow", .name n, .mark .colon, .block ss]
  | flowWith {n ps ss span} : Consists (.decl (.flow ⟨n, ps, ss, span⟩))
        [.word "flow", .name n, .params ps, .mark .colon, .block ss]
  | onStart : Consists (.event .start) [.word "start"]
  | onInput : Consists (.event .input) [.word "input"]
  | onOutput : Consists (.event .output) [.word "output"]
  | onToolCall : Consists (.event .toolCall) [.word "tool", .mark .minus, .word "call"]
  | onToolResult : Consists (.event .toolResult) [.word "tool", .mark .minus, .word "result"]
  | handler {e ss span} : Consists (.decl (.handler ⟨e, ss, span⟩)) [.word "on", .event e.node, .doBlock ss]
  -- sources
  | version {n} : Consists (.version n) [.word "weave", .name n, .mark .newline]
  | decls {ds} : Consists (.decls ds) (ds.map .decl)
  | empty : Consists (.source none []) []
  | versionOnly {n} : Consists (.source (some n) []) [.version n]
  | source {ds} : Consists (.source none ds) [.decls ds]
  | versionSource {n ds} : Consists (.source (some n) ds) [.version n, .decls ds]

end Part

mutual

/-- Tokens stand for a part. -/
inductive Written : Part → List Token → Prop where
  | word {t} (kind : t.kind = .ident) : Written (.word t.text) [t]
  | mark {t} : Written (.mark t.kind) [t]
  | name {t} (kind : t.kind = .ident) : Written (.name t.word) [t]
  | var {t} (kind : t.kind = .var) : Written (.var t.variableName) [t]
  | text {t} (kind : t.kind = .string) : Written (.text t.quoted) [t]
  | longText {t} (kind : t.kind = .tripleString) : Written (.longText t.quoted) [t]
  | integer {t} {limit} (kind : t.kind = .int) (fits : t.digitsValue ≤ limit) :
      Written (.integer limit ⟨t.digitsValue, t.span⟩) [t]
  | decimal {t} (kind : t.kind = .float) : Written (.decimal t.float) [t]
  | parts {p} {ps} {tokens} (consists : p.Consists ps) (written : WrittenAll ps tokens) : Written p tokens

/-- Tokens stand for parts, one after the other. -/
inductive WrittenAll : List Part → List Token → Prop where
  | nil : WrittenAll [] []
  | cons {p} {ps} {u v} (first : Written p u) (rest : WrittenAll ps v) : WrittenAll (p :: ps) (u ++ v)

end

lemma Written.mark_of {t : Token} (h : t.kind = kind) : Written (.mark kind) [t] :=
  h ▸ .mark

section

variable {ps : List Part} {t : Token} {tokens : List Token}

lemma WrittenAll.mark (h : t.kind = kind) (rest : WrittenAll ps tokens) :
    WrittenAll (.mark kind :: ps) ([t] ++ tokens) := .cons (.mark_of h) rest

lemma WrittenAll.name (h : t.kind = .ident) (rest : WrittenAll ps tokens) :
    WrittenAll (.name t.word :: ps) ([t] ++ tokens) := .cons (.name h) rest

lemma WrittenAll.var (h : t.kind = .var) (rest : WrittenAll ps tokens) :
    WrittenAll (.var t.variableName :: ps) ([t] ++ tokens) := .cons (.var h) rest

end

lemma WrittenAll.append (h : WrittenAll ps u) (h' : WrittenAll qs v) : WrittenAll (ps ++ qs) (u ++ v) := by
  match ps, u, h with
  | _, _, .nil => exact h'
  | _, _, .cons first rest =>
    rw [List.append_assoc]
    exact .cons first (rest.append h')

end Workflow
