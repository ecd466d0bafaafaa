import Mathlib.Data.List.Basic
import Mathlib.Logic.Basic
import Workflow.Proofs.Blocks
import Workflow.Proofs.Derivation
import Workflow.Proofs.Written

/-!
What is read of a derivation. `Faithful` says for every phrase what reading a tree of it may come to: a part of
a program for which the tokens of the tree stand, or an error about an integer that exceeds the limit of its
phrase. A phrase is sound if each of its rules makes a faithful tree of faithful ones.
-/

namespace Workflow

open List

def Nonterminal.limit : Nonterminal → Option Nat
  | .literal => some literalLimit
  | .retryDef | .loopBlock => some countLimit
  | .timeoutDef => some durationLimit
  | _ => none

namespace Part

/-- Each block inside a part has a statement, and each match a case. -/
def Full : Part → Prop
  | simple s | stmt s => s.Full
  | stmts ss | block ss | doBlock ss | elseBranch ss => ss ≠ [] ∧ Stmt.AllFull ss
  | arm a => Arm.AllFull [a]
  | arms as => as ≠ [] ∧ Arm.AllFull as
  | decl d => d.Full
  | decls ds | source _ ds => ∀ d ∈ ds, d.Full
  | _ => True

/-- A part is not a list of no statements, nor of no cases. -/
@[reducible] def Nonempty : Part → Prop
  | stmts ss => ss ≠ []
  | arms as => as ≠ []
  | _ => True

lemma Consists.full {p : Part} (h : p.Consists ps) (hne : p.Nonempty) (hps : ∀ q ∈ ps, q.Full) : p.Full := by
  cases p with
  | simple => cases h <;> trivial
  | stmt =>
    cases h with
    | simple => exact hps (.simple _) mem_cons_self
    | loop | loopMax | forEach | failure => exact hps (.doBlock _) (by simp)
    | @branch _ ss =>
      obtain ⟨hne, hfull⟩ := hps (.stmts ss) (by simp [indented])
      exact ⟨hne, hfull, trivial⟩
    | @branchElse _ ss =>
      obtain ⟨hne, hfull⟩ := hps (.stmts ss) (by simp [indented])
      exact ⟨hne, hfull, (hps (.elseBranch _) (by simp)).2⟩
    | select => exact hps (.arms _) (by simp [indented])
    | _ => trivial
  | stmts =>
    cases h
    exact ⟨hne, Stmt.allFull_of_forall fun s hs => hps (.stmt s) (mem_map_of_mem hs)⟩
  | block | doBlock | elseBranch =>
    cases h
    exact hps (.stmts _) (by simp [indented])
  | arm => cases h <;> exact ⟨hps (.simple _) (by simp), trivial⟩
  | arms =>
    cases h
    exact ⟨hne, Arm.allFull_of_forall fun a ha => hps (.arm a) (mem_map_of_mem ha)⟩
  | decl =>
    cases h with
    | flow | flowWith => exact hps (.block _) (by simp)
    | handler => exact hps (.doBlock _) (by simp)
    | _ => trivial
  | decls =>
    cases h
    exact fun d hd => hps (.decl d) (mem_map_of_mem hd)
  | source =>
    cases h with
    | empty | versionOnly => exact nofun
    | source | versionSource => exact hps (.decls _) (by simp)
  | _ => trivial

end Part

namespace Form

/-- Somewhere in a tree, an integer exceeds the limit of the phrase it stands in. -/
inductive Exceeds (token : Token) : Tree → Prop where
  | here {head} {children} {span} {limit}
      (child : .leaf token ∈ children) (kind : token.kind = .int) (limited : head.limit = some limit)
      (large : limit < token.digitsValue) : Exceeds token (.node head children span)
  | deeper {head} {children} {span} {t} (child : t ∈ children)
      (inside : Exceeds token t) : Exceeds token (.node head children span)

/-- A tree is among the children of a node. That is seen from the list of the children, so it is an instance. -/
class Child (t : Tree) (children : List Tree) : Prop where
  mem : t ∈ children

instance {t : Tree} {children : List Tree} : Child t (t :: children) := ⟨mem_cons_self⟩

instance {t first : Tree} {children : List Tree} [Child t children] : Child t (first :: children) :=
  ⟨mem_cons_of_mem _ Child.mem⟩

/-- The tokens of a tree stand for a part, in which each block has a statement. -/
class Stands (p : Part) (t : Tree) : Prop where
  written : Written p t.tokens
  full : p.Full

/-- The tokens of some trees stand for parts, one after the other. That is seen from the two lists. -/
class StandAll (ps : List Part) (ts : List Tree) : Prop where
  written : WrittenAll ps (Tree.tokensOf ts)
  full : ∀ p ∈ ps, p.Full

section

variable {t : Token} {c : Tree} {p : Part} {ps qs rs : List Part} {ts : List Tree}

instance [h : Fact (t.kind = kind)] : Stands (.mark kind) (.leaf t) := ⟨.mark_of h.out, trivial⟩

instance [h : Fact (t.kind = .ident)] : Stands (.name t.word) (.leaf t) := ⟨.name h.out, trivial⟩

instance [h : Fact (t.kind = .var)] : Stands (.var t.variableName) (.leaf t) := ⟨.var h.out, trivial⟩

instance [h : Fact (t.kind = .string)] : Stands (.text t.quoted) (.leaf t) := ⟨.text h.out, trivial⟩

instance [h : Fact (t.kind = .tripleString)] : Stands (.longText t.quoted) (.leaf t) := ⟨.longText h.out, trivial⟩

instance [h : Fact (t.kind = .float)] : Stands (.decimal t.float) (.leaf t) := ⟨.decimal h.out, trivial⟩

instance : StandAll [] [] := ⟨.nil, forall_mem_nil _⟩

instance [first : Stands p c] [rest : StandAll ps ts] : StandAll (p :: ps) (c :: ts) :=
  ⟨.cons first.written rest.written, forall_mem_cons.2 ⟨first.full, rest.full⟩⟩

instance [h : StandAll qs ts] : StandAll ([] ++ qs) ts := h

instance [h : StandAll (p :: (ps ++ qs)) ts] : StandAll (p :: ps ++ qs) ts := h

instance [h : StandAll (ps ++ (qs ++ rs)) ts] : StandAll (ps ++ qs ++ rs) ts := append_assoc ps qs rs ▸ h

instance [h : StandAll (.mark .newline :: .mark .indent :: (ps ++ [.mark .dedent])) ts] :
    StandAll (Part.indented ps) ts := h

instance [h : StandAll (.mark .newline :: .mark .indent :: (ps ++ .mark .dedent :: qs)) ts] :
    StandAll (Part.indented ps ++ qs) ts := by
  simpa [Part.indented] using h

instance [rest : StandAll ps ts] : StandAll (.exprs [] :: ps) ts :=
  have hnone : Written (.exprs []) [] := .parts .exprs .nil
  ⟨.cons hnone rest.written, forall_mem_cons.2 ⟨trivial, rest.full⟩⟩

instance [rest : StandAll ps ts] : StandAll (.entries [] :: ps) ts :=
  have hnone : Written (.entries []) [] := .parts .entries .nil
  ⟨.cons hnone rest.written, forall_mem_cons.2 ⟨trivial, rest.full⟩⟩

instance factTrue : Fact True := ⟨trivial⟩

end

/-- What reading a tree may come to: something good, or an error about an integer that is too large. -/
inductive Outcome {α : Type} (Good : α → Prop) (t : Tree) : Formed α → Prop where
  | ok {a} (good : Good a) : Outcome Good t (.ok a)
  | error {token} {span} (exceeds : Exceeds token t) : Outcome Good t (.error (.invalidInteger token.text span))

abbrev Yields {α : Type} (t : Tree) (part : α → Part) (x : Formed α) : Prop :=
  Outcome (fun a => Stands (part a) t) t x

abbrev YieldsAll {α : Type} (t : Tree) (parts : List α → List Part) (x : Formed (List α)) : Prop :=
  Outcome (fun as => as ≠ [] ∧ WrittenAll (parts as) t.tokens ∧ ∀ p ∈ parts as, p.Full) t x

/-- What is read of a tree of a phrase is what its tokens stand for. -/
@[simp] def Faithful : Nonterminal → Tree → Prop
  | .unit, t => ∀ name, Yields t (fun p => .source p.version p.decls) (Program.ofTree name t)
  | .version, t => Yields t .version (version t)
  | .items, t => YieldsAll t (·.map .decl) (decls t)
  | .item, t => Yields t .decl (decls.item t)
  | .importDecl, t | .modelDef, t | .schemaDef, t | .toolDef, t | .retryDef, t | .timeoutDef, t
  | .guardrailDef, t | .promptDef, t | .agentDef, t | .flowDef, t | .handlerDef, t =>
    Yields t .decl (decl t)
  | .modelProps, t => YieldsAll t (·.map .modelProp) (modelProps t)
  | .modelProp, t => Yields t .modelProp (modelProps.modelProp t)
  | .fields, t => YieldsAll t (·.map .field) (fields t)
  | .field, t => Yields t .field (fields.field t)
  | .typeTag, t => Yields t .type (typeTag t)
  | .baseType, t => Yields t .baseType (baseType t)
  | .toolKind, t => ∃ kind span, t = .node .toolKind [.keyword kind] span ∧
      Stands (.toolKind (if kind.text = "mcp" then .mcp else .builtin)) t
  | .backoff, t => Yields t .backoff (backoff t)
  | .timeUnit, t => Yields t .timeUnit (timeUnit t)
  | .promptHead, t => ∀ body clause span, Outcome (fun p => Stands (.promptHead p) t ∧
      p.body = body ∧ p.escalate = clause) t (promptHead body clause span t)
  | .promptMods, t => ∀ p, Outcome (fun q => Stands (.promptMods p q) t ∧
      q.body = p.body ∧ q.escalate = p.escalate) t (promptMods p t)
  | .promptMod, t => ∀ p, Outcome (fun q => Stands (.promptMod p q) t ∧
      q.body = p.body ∧ q.escalate = p.escalate) t (promptMods.promptMod p t)
  | .promptBody, t => Yields t .promptText (promptBody t)
  | .escalateClause, t => Yields t .escalateClause (escalateClause t)
  | .escalateOp, t => Yields t .escalateOp (escalateOp t)
  | .agentProps, t => ∀ a, Yields t (.agentProps a) (agentProps a t)
  | .agentProp, t => ∀ a, Yields t (.agentProp a) (agentProps.agentProp a t)
  | .nameList, t => words .ident t ≠ [] ∧ WrittenAll (Part.commas ((words .ident t).map .name)) t.tokens
  | .params, t => WrittenAll ((words .var t).map .var) t.tokens
  | .handlerEvent, t => Yields t (fun e => .event e.node) (handlerEvent t)
  | .block, t => Yields t .block (block t)
  | .doBlock, t => Yields t .doBlock (block t)
  | .elseBranch, t => Yields t .elseBranch (block t)
  | .stmts, t => YieldsAll t (·.map .stmt) (stmts t)
  | .stmt, t | .parallelBlock, t | .loopBlock, t | .forBlock, t | .ifBlock, t | .matchBlock, t
  | .failureBlock, t | .guardStmt, t => Yields t .stmt (stmt t)
  | .simpleStmt, t | .assignment, t | .propertyAssignment, t | .runStmt, t | .returnStmt, t
  | .continueStmt, t | .abortStmt, t | .pushStmt, t | .logStmt, t => Yields t .simple (stmt t)
  | .propPath, t | .implicitProp, t =>
    WrittenAll ((words .ident t).flatMap fun n => [.mark .dot, .name n]) t.tokens
  | .invocation, t => Yields t .invocation (invocation t)
  | .modelOverride, t => Yields t .override (modelOverride t)
  | .args, t | .elems, t => YieldsAll t (fun es => Part.commas (es.map (.expr .or))) (exprs t)
  | .escalateHandler, t => Yields t .escalateHandler (escalateHandler t)
  -- an action is read together with the handler around it
  | .escalateAction, t => ∀ on escalate span, Yields t .escalateAction
      (escalateHandler (.node .escalateHandler [.keyword on, .keyword escalate, t] span))
  | .arms, t => YieldsAll t (·.map .arm) (arms t)
  | .arm, t => Yields t .arm (arm t)
  | .expr, t | .orExpr, t => Yields t (.expr .or) (expr t)
  | .andExpr, t => Yields t (.expr .and) (expr t)
  | .notExpr, t => Yields t (.expr .not) (expr t)
  | .cmpExpr, t => Yields t (.expr .comparison) (expr t)
  | .addExpr, t => Yields t (.expr .sum) (expr t)
  | .atom, t | .varRef, t | .listExpr, t | .mapExpr, t | .filterExpr, t => Yields t (.expr .atom) (expr t)
  | .cmpOp, t => Yields t .comparison (comparison t)
  | .literal, t => Yields t (fun l => .literal l.node) (literal t)
  | .entries, t => YieldsAll t (fun es => Part.commas (es.map .entry)) (entries t)
  | .entry, t => Yields t .entry (entry t)
  | .mapKey, t => Yields t .key (key t)

/-- Something holds of all trees that spell some symbols, if what is read of them is faithful. -/
def Demands : List Symbol → (List Tree → Prop) → Prop
  | [], P => P []
  | .terminal (.kind k) :: body, P => ∀ t : Token, Fact (t.kind = k) → Demands body fun ts => P (.leaf t :: ts)
  | .terminal (.word w) :: body, P => ∀ t : Token, t.text = w → Stands (.word w) (.keyword t) →
      Demands body fun ts => P (.keyword t :: ts)
  | .sub phrase :: body, P => ∀ children span, Faithful phrase (.node phrase children span) →
      Demands body fun ts => P (.node phrase children span :: ts)

/-- Every rule of a phrase makes a faithful tree of faithful ones. -/
def Sound (phrase : Nonterminal) : Prop :=
  ((Grammar.rules.filter (·.head = phrase)).map (·.body)).Forall fun body =>
    Demands body fun children => ∀ span, Faithful phrase (.node phrase children span)

/-- A tree spells a symbol, and what is read of it is faithful if that is a phrase. -/
def Follows (s : Symbol) (t : Tree) : Prop :=
  t.Spells Grammar.rules s ∧ ∀ phrase, s = .sub phrase → Faithful phrase t

lemma Demands.apply (hall : Forall₂ Follows body children) {P : List Tree → Prop} (h : Demands body P) :
    P children := by
  induction hall generalizing P with
  | nil => exact h
  | @cons s t _ _ ht _ ih =>
    match s, t, ht with
    | .terminal (.kind k), t, ⟨hspells, _⟩ =>
      obtain ⟨token, rfl, accepted⟩ := Tree.spells_terminal.1 hspells
      exact ih (h token ⟨by simpa [Terminal.accepts] using accepted⟩)
    | .terminal (.word w), t, ⟨hspells, _⟩ =>
      obtain ⟨token, rfl, accepted⟩ := Tree.spells_terminal.1 hspells
      obtain ⟨hkind, htext⟩ : token.kind = .ident ∧ token.text = w := by simpa [Terminal.accepts] using accepted
      exact ih (h token htext ⟨htext ▸ .word hkind, trivial⟩)
    | .sub _, .node _ children span, ⟨⟨rfl, _⟩, hfaithful⟩ => exact ih (h children span (hfaithful _ rfl))

lemma faithful_of_spells (hsound : ∀ phrase, Sound phrase) (t : Tree) (phrase : Nonterminal)
    (h : t.Spells Grammar.rules (.sub phrase)) : Faithful phrase t := by
  refine (Tree.Spells.induction (motive := Follows) (fun accepted => ⟨Tree.spells_leaf accepted, nofun⟩) ?_ t h).2
    phrase rfl
  intro r children span known body
  refine ⟨⟨rfl, r, known, rfl, Tree.spellsAll_iff.2 (body.imp fun _ _ => And.left)⟩, ?_⟩
  rintro _ ⟨⟩
  have hmem : r.body ∈ (Grammar.rules.filter (·.head = r.head)).map (·.body) :=
    mem_map.2 ⟨r, mem_filter.2 ⟨known, by simp⟩, rfl⟩
  exact Demands.apply body (forall_iff_forall_mem.1 (hsound r.head) r.body hmem) span

/-! ### Outcomes of nodes -/

namespace Outcome

variable {α β : Type} {P : α → Prop} {Q : β → Prop} {head : Nonterminal} {children : List Tree} {span : Span}
  {c d : Tree} {x : Formed α} {part : α → Part} {t : Token} {a : α} {xs : Formed (List α)}

lemma bind [Child c children] (hx : Outcome P c x) (hf : ∀ a, P a → Outcome Q (.node head children span) (f a)) :
    Outcome Q (.node head children span) (x >>= f) := by
  cases hx with
  | ok good => exact hf _ good
  | error exceeds => exact .error (.deeper Child.mem exceeds)

lemma integer (limit : Nat) [kind : Fact (t.kind = .int)] [Child (.leaf t) children]
    (hlimit : head.limit = some limit) (hf : Stands (.integer limit ⟨t.digitsValue, t.span⟩) (.leaf t) →
      Outcome Q (.node head children span) (f t.digitsValue)) :
    Outcome Q (.node head children span) (t.integer limit place >>= f) := by
  by_cases hfits : t.digitsValue ≤ limit
  · rw [Token.integer, if_pos hfits]
    exact hf ⟨.integer kind.out hfits, trivial⟩
  · rw [Token.integer, if_neg hfits]
    exact .error (.here Child.mem kind.out hlimit (Nat.lt_of_not_le hfits))

lemma keep {R : α → Prop} [Child c children] (hx : Outcome P c x) (h : ∀ a, P a → R a) :
    Outcome R (.node head children span) x := by
  cases hx with
  | ok good => exact .ok (h _ good)
  | error exceeds => exact .error (.deeper Child.mem exceeds)

lemma united {whole : List α → Part} (hxs : YieldsAll c parts xs) (hwhole : ∀ as, (whole as).Consists (parts as))
    (hne : ∀ as, as ≠ [] → (whole as).Nonempty) : Yields c whole xs := by
  cases hxs with
  | ok good => exact .ok ⟨.parts (hwhole _) good.2.1, (hwhole _).full (hne _ good.1) good.2.2⟩
  | error exceeds => exact .error exceeds

lemma stands {p : Part} (hpart : p.Consists ps) [h : StandAll ps children] [hne : Fact p.Nonempty] :
    Stands p (.node head children span) := ⟨.parts hpart h.written, hpart.full hne.out h.full⟩

lemma made (hpart : (part a).Consists ps) [StandAll ps children] [Fact (part a).Nonempty] :
    Yields (.node head children span) part (.ok a) := .ok (stands hpart)

lemma only (hx : Yields c part x) : Yields (.node head [c] span) part x := by
  have htokens : (Tree.node head [c] span).tokens = c.tokens := by simp [Tree.tokens, Tree.tokensOf]
  exact keep hx fun _ ha => ⟨htokens ▸ ha.written, ha.full⟩

lemma whole {whole : α → Part} (hx : Yields c part x) (hwhole : ∀ a, (whole a).Consists [part a])
    [∀ a, Fact (whole a).Nonempty] : Yields (.node head [c] span) whole x := keep hx fun a _ => stands (hwhole a)

/-! ### Outcomes of lists -/

lemma one (hx : Yields c part x) : YieldsAll (.node head [c] span) (·.map part) (x >>= fun a => pure [a]) :=
  bind hx fun _ ha => .ok ⟨cons_ne_nil _ _, .cons ha.written .nil, forall_mem_singleton.2 ha.full⟩

lemma snoc (hxs : YieldsAll c (·.map part) xs) (hx : Yields d part x) :
    YieldsAll (.node head [c, d] span) (·.map part) (xs >>= fun as => x >>= fun a => pure (as ++ [a])) := by
  refine bind hxs fun as has => bind hx fun a ha => .ok ⟨by simp, ?_⟩
  simp only [map_append, forall_mem_append]
  exact ⟨has.2.1.append (.cons ha.written .nil), has.2.2, forall_mem_singleton.2 ha.full⟩

lemma oneComma (hx : Yields c part x) :
    YieldsAll (.node head [c] span) (fun as => Part.commas (as.map part)) (x >>= fun a => pure [a]) :=
  bind hx fun _ ha => .ok ⟨cons_ne_nil _ _, .cons ha.written .nil, forall_mem_singleton.2 ha.full⟩

lemma snocComma {comma : Token} (hxs : YieldsAll c (fun as => Part.commas (as.map part)) xs)
    (hcomma : Fact (comma.kind = .comma)) (hx : Yields d part x) :
    YieldsAll (.node head [c, .leaf comma, d] span) (fun as => Part.commas (as.map part))
      (xs >>= fun as => x >>= fun a => pure (as ++ [a])) := by
  refine bind hxs fun as has => bind hx fun a ha => .ok ⟨by simp, ?_⟩
  have hne : as.map part ≠ [] := by simpa using has.1
  simp only [map_append, map_singleton, Part.commas_snoc hne, forall_mem_append]
  exact ⟨has.2.1.append (.mark hcomma.out (.cons ha.written .nil)), has.2.2,
    forall_mem_cons.2 ⟨trivial, forall_mem_singleton.2 ha.full⟩⟩

end Outcome

end Form

end Workflow
