import Workflow.Proofs.Breaks
import Workflow.Proofs.Compilation
import Workflow.Proofs.Definitions
import Workflow.Proofs.Offside

/-!
Names are words. A token that is a name or a variable has letters, digits and underscores only, and every name
that the operations of a program show is one of its tokens.
-/

namespace Workflow

open List Lower

variable {o : Op} {span : Span}

/-! ### Tokens -/

namespace Lexer

def IsWord (s : String) : Prop := ∀ c ∈ s.toList, isNamePart c = true

lemma isWord_empty : IsWord "" := by simp [IsWord]

lemma IsWord.feed_not_mem (h : IsWord s) : '\n' ∉ s.toList := fun hmem =>
  absurd (h '\n' hmem) (by decide)

end Lexer

def Token.Worded (t : Token) : Prop :=
  (t.kind = .ident → Lexer.IsWord t.text) ∧ (t.kind = .var → Lexer.IsWord t.variableName.node)

lemma Token.worded_of_mem {t : Token} (h : t.text.toList ∈ t.kind.pattern) : t.Worded := by
  constructor
  · intro hkind
    rw [hkind] at h
    exact Lexer.isNamePart_of_mem h
  · intro hkind c hc
    rw [hkind] at h
    obtain ⟨name, hname, htext⟩ := Lexer.mem_sign_mul.1 h
    rw [variableName, String.toList_ofList, htext, cons_append, dropWhile_cons_of_pos (by decide)] at hc
    exact Lexer.isNamePart_of_mem hname c ((dropWhile_sublist _).mem hc)

lemma Token.worded_of_layout {source : String} (hraw : Token.lex source = .ok raw)
    (h : Token.layout source raw = .ok tokens) : ∀ t ∈ tokens, t.Worded := by
  intro t ht
  rcases Layout.mem_of_layout hraw h ht with ht | hkind | hkind
  · exact worded_of_mem (mem_pattern_of_lex hraw t ht)
  all_goals
    refine ⟨fun heq => ?_, fun heq => ?_⟩ <;> rw [heq] at hkind <;> cases hkind

/-! ### What operations show -/

open Lexer (IsWord isWord_empty)

def Expr.Worded (e : Expr) : Prop := ∀ s ∈ e.term.names, IsWord s

/-- An operation shows words, besides keys of maps. -/
def Op.Worded (o : Op) : Prop := ∀ s ∈ o.names, IsWord s

/-- The operations of a statement show words, besides keys of maps. -/
def Stmt.Worded (s : Stmt) : Prop := ∀ depth, ∀ step ∈ stmt depth s, step.op.Worded

/-- The operations of a case show words, besides keys of maps. -/
def Arm.Worded (a : Arm) : Prop := ∀ depth, ∀ step ∈ arms depth [a], step.op.Worded

structure PromptDef.Worded (p : PromptDef) : Prop where
  name : IsWord p.name.node
  model : ∀ n ∈ p.model, IsWord n.node
  expecting : ∀ n ∈ p.expecting, IsWord n.node

structure AgentDef.Worded (a : AgentDef) : Prop where
  name : ∀ n ∈ a.name, IsWord n.node
  instruction : ∀ n ∈ a.instruction, IsWord n.node
  tools : ∀ n ∈ a.tools, IsWord n.node
  delegate : ∀ n ∈ a.delegate.getD [], IsWord n.node
  uses : ∀ n ∈ a.uses.getD [], IsWord n.node
  retry : ∀ n ∈ a.retry, IsWord n.node
  timeout : ∀ n ∈ a.timeout, IsWord n.node

/-- The operations of a declaration show words, besides keys of maps; an agent goes under its own name. -/
def Decl.Worded (d : Decl) : Prop :=
  ∀ name, (∀ a, d = .agent a → name = a.effectiveName) → ∀ step ∈ decl name d, step.op.Worded

namespace Expr

lemma terms_eq (es : List Expr) : terms es = es.map term := by
  induction es with
  | nil => rfl
  | cons e rest ih => rw [terms, ih, map_cons]

lemma worded_binary : (binary op left right span).Worded ↔ left.Worded ∧ right.Worded := forall_mem_append

lemma worded_property {path : List Name} :
    (property base path span).Worded ↔ IsWord base.node ∧ ∀ n ∈ path, IsWord n.node := by
  simp [Worded, term, Term.names, plainNames]

lemma worded_filter {path : List Name} : (filter items path pathSpan op value span).Worded ↔
      (items.Worded ∧ ∀ n ∈ path, IsWord n.node) ∧ value.Worded := by
  simp only [Worded, term, Term.names, plainNames, forall_mem_append, forall_mem_map]

lemma worded_list (span : Span) : ∀ {items}, (∀ e ∈ items, e.Worded) → (list items span).Worded
  | [], _ => nofun
  | _ :: _, h => by
    obtain ⟨hfirst, hrest⟩ := forall_mem_cons.1 h
    exact forall_mem_append.2 ⟨hfirst, worded_list span hrest⟩

lemma worded_map (span : Span) : ∀ {entries}, (∀ e ∈ entries, e.2.Worded) → (map entries span).Worded
  | [], _ => nofun
  | _ :: _, h => by
    obtain ⟨hfirst, hrest⟩ := forall_mem_cons.1 h
    exact forall_mem_append.2 ⟨hfirst, worded_map span hrest⟩

end Expr

namespace Op

lemma worded_iff : o.Worded ↔ (∀ s ∈ o.labels, IsWord s) ∧ ∀ t ∈ o.terms, ∀ s ∈ t.names, IsWord s := by
  rw [Worded, names, forall_mem_append]
  refine and_congr_right fun _ => ⟨fun h t ht s hs => h s (mem_flatMap.2 ⟨t, ht, hs⟩), fun h s hs => ?_⟩
  obtain ⟨t, ht, hs⟩ := mem_flatMap.1 hs
  exact h t ht s hs

lemma worded_of_term {e : Expr} (hterms : o.terms = [e.term]) (he : e.Worded)
    (hlabels : ∀ s ∈ o.labels, IsWord s) : o.Worded := by
  rw [worded_iff, hterms]
  exact ⟨hlabels, forall_mem_singleton.2 he⟩

lemma worded_of_labels (hterms : o.terms = []) (hlabels : ∀ s ∈ o.labels, IsWord s) : o.Worded := by
  rw [worded_iff, hterms]
  exact ⟨hlabels, nofun⟩

lemma worded_of_nameless (h : o.names = []) : o.Worded := by
  rw [Worded, h]
  exact nofun

lemma worded_runOp {i : Invocation} (htarget : ∀ n ∈ target, IsWord n.node) (hargs : ∀ e ∈ i.args, e.Worded)
    (hescalate : ∀ a ∈ onEscalate, ∀ e ∈ a.value?, e.Worded) : (runOp target onEscalate i).Worded := by
  have htargets : ∀ s ∈ (target.map (·.node)).toList, IsWord s := by simpa using htarget
  have hterms : ∀ t ∈ Expr.terms i.args, ∀ s ∈ t.names, IsWord s := by
    rw [Expr.terms_eq, forall_mem_map]
    exact hargs
  have hvalue : ∀ t ∈ ((onEscalate.map escalate).bind EscalateAction.value?).toList, ∀ s ∈ t.names, IsWord s := by
    rcases onEscalate with _ | _ | _ | _
    · simp
    · exact forall_mem_singleton.2 (hescalate _ rfl _ rfl)
    · simp [escalate, EscalateAction.value?]
    · simp [escalate, EscalateAction.value?]
  rw [worded_iff]
  cases i with
  | agent | prompt => exact ⟨htargets, forall_mem_append.2 ⟨hterms, hvalue⟩⟩
  | flow => exact ⟨htargets, hterms⟩

lemma worded_parallel {ss : List Stmt} (h : ∀ s ∈ ss, s.Worded) : Op.Worded (.parallel (ss.filterMap branch?)) := by
  have hcall : ∀ c ∈ ss.filterMap branch?, (∀ s ∈ c.target, IsWord s) ∧ ∀ t ∈ c.args, ∀ s ∈ t.names, IsWord s := by
    intro c hc
    obtain ⟨s, hs, hbranch⟩ := mem_filterMap.1 hc
    unfold branch? at hbranch
    split at hbranch
    · next target name args onEscalate span =>
      cases hbranch
      have hop := worded_iff.1 (h _ hs 0 _ mem_cons_self)
      exact ⟨fun s hs => hop.1 s (Option.mem_toList.2 hs), fun t ht => hop.2 t (mem_append_left _ ht)⟩
    · cases hbranch
  rw [worded_iff]
  refine ⟨fun s hs => ?_, fun t ht => ?_⟩
  · obtain ⟨c, hc, hs⟩ := mem_filterMap.1 hs
    exact (hcall c hc).1 s hs
  · obtain ⟨c, hc, ht⟩ := mem_flatMap.1 ht
    exact (hcall c hc).2 t ht

end Op

namespace Lower

lemma block_eq (depth : Nat) (ss : List Stmt) : block depth ss = ss.flatMap (stmt depth) := by
  induction ss with
  | nil => rw [block, flatMap_nil]
  | cons s rest ih => rw [block, ih, flatMap_cons]

lemma arms_eq (depth : Nat) (as : List Arm) : arms depth as = as.flatMap fun a => arms depth [a] := by
  induction as with
  | nil => rw [arms, flatMap_nil]
  | cons a rest ih =>
    obtain ⟨pattern, body, span⟩ := a
    rw [flatMap_cons, ← ih, arms, arms, arms, append_nil]

lemma worded_block (h : ∀ s ∈ ss, s.Worded) (depth : Nat) : ∀ step ∈ block depth ss, step.op.Worded := by
  intro step hstep
  rw [block_eq] at hstep
  obtain ⟨s, hs, hstep⟩ := mem_flatMap.1 hstep
  exact h s hs depth step hstep

lemma worded_arms (h : ∀ a ∈ as, a.Worded) (depth : Nat) : ∀ step ∈ arms depth as, step.op.Worded := by
  intro step hstep
  rw [arms_eq] at hstep
  obtain ⟨a, ha, hstep⟩ := mem_flatMap.1 hstep
  exact h a ha depth step hstep

end Lower

lemma isWord_of_mem_map {n? : Option Name} :
    (∀ s ∈ (n?.map (·.node)).toList, IsWord s) ↔ ∀ n ∈ n?, IsWord n.node := by
  cases n? <;> simp

lemma PromptDef.Worded.op {p : PromptDef} (h : p.Worded) : Op.Worded (.prompt (promptSpec p)) := by
  refine Op.worded_of_labels rfl (forall_mem_cons.2 ⟨h.name, forall_mem_append.2 ?_⟩)
  exact ⟨isWord_of_mem_map.2 h.model, isWord_of_mem_map.2 h.expecting⟩

lemma AgentDef.Worded.op {a : AgentDef} (h : a.Worded) : Op.Worded (.agent (agentSpec a.effectiveName a)) := by
  have hname : IsWord a.effectiveName := by
    unfold effectiveName
    cases hn : a.name with
    | none =>
      have hdefault : defaultAgent.toList.all Lexer.isNamePart = true := by decide
      exact all_eq_true.1 hdefault
    | some n => exact h.name n hn
  have hinstruction : IsWord ((a.instruction.map (·.node)).getD "") := by
    cases hn : a.instruction with
    | none => exact isWord_empty
    | some n => exact h.instruction n hn
  refine Op.worded_of_labels rfl (forall_mem_cons.2 ⟨hname, forall_mem_cons.2 ⟨hinstruction, ?_⟩⟩)
  simp only [agentSpec, plainNames, append_eq, forall_mem_append, forall_mem_map, isWord_of_mem_map]
  exact ⟨⟨⟨⟨h.tools, h.delegate⟩, h.uses⟩, h.retry⟩, h.timeout⟩

/-! ### Parts of programs -/

namespace Part

/-- What a part of a program says shows words. Of what changes a definition, this is so if it is so of the
definition before. -/
def Worded : Part → Prop
  | name n | var n => IsWord n.node
  | path ns | names ns | params ns => ∀ n ∈ ns, IsWord n.node
  | expr _ e | entry (_, e) => e.Worded
  | exprs es => ∀ e ∈ es, e.Worded
  | entries es => ∀ e ∈ es, e.2.Worded
  | invocation i => ∀ e ∈ i.args, e.Worded
  | escalateAction a | escalateHandler a => ∀ e ∈ a.value?, e.Worded
  | simple s | stmt s => s.Worded
  | stmts ss | block ss | doBlock ss | elseBranch ss => ∀ s ∈ ss, s.Worded
  | arm a => a.Worded
  | arms as => ∀ a ∈ as, a.Worded
  | modelProp p => IsWord p.1.node
  | modelProps ps => ∀ p ∈ ps, IsWord p.1.node
  | field f => IsWord f.name.node
  | fields fs => ∀ f ∈ fs, IsWord f.name.node
  | promptHead p => p.Worded
  | promptMod p q | promptMods p q => p.Worded → q.Worded
  | agentProp a b | agentProps a b => a.Worded → b.Worded
  | decl d => d.Worded
  | decls ds | source _ ds => ∀ d ∈ ds, d.Worded
  | _ => True

def AllWorded : List Part → Prop
  | [] => True
  | p :: rest => p.Worded ∧ AllWorded rest

lemma worded_of_mem : ∀ {parts}, AllWorded parts → p ∈ parts → p.Worded
  | _ :: _, h, hp => by
    rcases mem_cons.1 hp with rfl | hp
    · exact h.1
    · exact worded_of_mem h.2 hp

lemma mem_commas : ∀ {parts}, p ∈ parts → p ∈ commas parts
  | [q], h => h
  | q :: r :: rest, h => by
    rw [commas, intersperse_cons_cons]
    rcases mem_cons.1 h with rfl | h
    · exact .head _
    · exact .tail _ (.tail _ (mem_commas h))

namespace Consists

variable {ps : List Part}

lemma worded_expr (h : Consists (.expr t e) ps) (hps : AllWorded ps) : e.Worded := by
  cases h with
  | tighter => exact hps.1
  | group | not => exact hps.2.1
  | or | and | compare | add | sub => exact Expr.worded_binary.2 ⟨hps.1, hps.2.2.1⟩
  | constant => exact nofun
  | variable_ => exact forall_mem_singleton.2 hps.1
  | property => exact Expr.worded_property.2 ⟨hps.1, hps.2.1⟩
  | list | listComma => exact Expr.worded_list _ hps.2.1
  | map | mapComma => exact Expr.worded_map _ hps.2.1
  | filter =>
    obtain ⟨-, hitems, -, hpath, -, hvalue, -⟩ := hps
    exact Expr.worded_filter.2 ⟨⟨hitems, hpath⟩, hvalue⟩

lemma worded_invocation (h : Consists (.invocation i) ps) (hps : AllWorded ps) : ∀ e ∈ i.args, e.Worded := by
  cases h with
  | agentCall | flowCall | promptCall | promptCallOver => exact nofun
  | agentCallWith | flowCallWith | promptCallWith | promptCallWithOver =>
    obtain ⟨-, -, -, -, hargs, -⟩ := hps
    exact hargs

lemma worded_escalateAction (h : Consists (.escalateAction a) ps) (hps : AllWorded ps) :
    ∀ e ∈ a.value?, e.Worded := by
  cases h with
  | escalateReturn =>
    rintro _ ⟨⟩
    exact hps.2.1
  | escalateContinue | escalateAbort => rintro _ ⟨⟩

lemma worded_simple (h : Consists (.simple s) ps) (hps : AllWorded ps) : s.Worded := by
  intro depth
  cases h <;> rw [Lower.stmt, forall_mem_singleton]
  case assign =>
    obtain ⟨hv, -, he, -⟩ := hps
    exact Op.worded_of_term rfl he (forall_mem_singleton.2 hv)
  case setPath =>
    obtain ⟨hv, hpath, -, he, -⟩ := hps
    exact Op.worded_of_term rfl he (forall_mem_cons.2 ⟨hv, forall_mem_map.2 hpath⟩)
  case run => exact Op.worded_runOp nofun hps.1 nofun
  case runOn =>
    obtain ⟨hi, ha, -⟩ := hps
    exact Op.worded_runOp nofun hi (by rintro _ ⟨⟩; exact ha)
  case runInto =>
    obtain ⟨hv, -, hi, -⟩ := hps
    exact Op.worded_runOp (by rintro _ ⟨⟩; exact hv) hi nofun
  case runIntoOn =>
    obtain ⟨hv, -, hi, ha, -⟩ := hps
    exact Op.worded_runOp (by rintro _ ⟨⟩; exact hv) hi (by rintro _ ⟨⟩; exact ha)
  case retValue => exact Op.worded_of_term rfl hps.2.1 nofun
  case ret | continue_ | abort => exact Op.worded_of_nameless rfl
  case abortWith => exact Op.worded_of_term rfl hps.2.1 nofun
  case push =>
    obtain ⟨-, he, -, hv, -⟩ := hps
    exact Op.worded_of_term rfl he (forall_mem_singleton.2 hv)
  case log => exact Op.worded_of_term rfl hps.2.1 nofun

lemma worded_arm (h : Consists (.arm a) ps) (hps : AllWorded ps) : a.Worded := by
  intro depth
  cases h with
  | arm =>
    obtain ⟨-, -, -, hs, -⟩ := hps
    rw [Lower.arms, Lower.arms, append_nil, forall_mem_cons]
    exact ⟨Op.worded_of_nameless rfl, hs _⟩
  | armElse =>
    rw [Lower.arms, Lower.arms, append_nil, forall_mem_cons]
    exact ⟨Op.worded_of_nameless rfl, hps.2.2.1 _⟩

lemma worded_stmt {s : Stmt} (h : Consists (.stmt s) ps) (hps : AllWorded ps) : s.Worded := by
  intro depth
  cases h with
  | simple => exact hps.1 depth
  | parallel =>
    rw [Lower.stmt, forall_mem_singleton]
    exact Op.worded_parallel hps.2.1
  | loop =>
    rw [Lower.stmt, forall_mem_cons]
    exact ⟨Op.worded_of_nameless rfl, worded_block hps.2.1 _⟩
  | loopMax =>
    obtain ⟨-, -, -, hbody, -⟩ := hps
    rw [Lower.stmt, forall_mem_cons]
    exact ⟨Op.worded_of_nameless rfl, worded_block hbody _⟩
  | forEach =>
    obtain ⟨-, hv, -, he, hbody, -⟩ := hps
    rw [Lower.stmt, forall_mem_cons]
    exact ⟨Op.worded_of_term rfl he (forall_mem_singleton.2 hv), worded_block hbody _⟩
  | branch =>
    obtain ⟨-, he, -, -, -, hbody, -⟩ := hps
    rw [Lower.stmt, append_assoc, cons_append, forall_mem_cons, forall_mem_append]
    refine ⟨Op.worded_of_term rfl he nofun, worded_block hbody _, ?_⟩
    exact worded_block (forall_mem_nil _) (depth + 1)
  | branchElse =>
    obtain ⟨-, he, -, -, -, hbody, -, hother, -⟩ := hps
    rw [Lower.stmt, append_assoc, cons_append, forall_mem_cons, forall_mem_append, forall_mem_append, forall_mem_map]
    refine ⟨Op.worded_of_term rfl he nofun, worded_block hbody _, ?_⟩
    exact ⟨fun _ _ => Op.worded_of_nameless rfl, worded_block hother _⟩
  | select =>
    obtain ⟨-, he, -, -, -, harms, -⟩ := hps
    rw [Lower.stmt, forall_mem_cons]
    exact ⟨Op.worded_of_term rfl he nofun, worded_arms harms _⟩
  | failure =>
    obtain ⟨-, -, hbody, -⟩ := hps
    rw [Lower.stmt, forall_mem_cons]
    exact ⟨Op.worded_of_nameless rfl, worded_block hbody _⟩
  | mask =>
    rw [Lower.stmt, forall_mem_singleton]
    exact Op.worded_of_labels rfl (forall_mem_singleton.2 hps.2.1)
  | blockIf | warnIf =>
    rw [Lower.stmt, forall_mem_singleton]
    exact Op.worded_of_labels rfl (forall_mem_singleton.2 hps.2.2.1)
  | retryWith =>
    rw [Lower.stmt, forall_mem_singleton]
    obtain ⟨-, -, -, -, hn, -⟩ := hps
    exact Op.worded_of_labels rfl (forall_mem_singleton.2 hn)

lemma worded_promptMod (h : Consists (.promptMod p q) ps) (hps : AllWorded ps) (hp : p.Worded) : q.Worded := by
  cases h with
  | expecting => exact { hp with expecting := by rintro _ ⟨⟩; exact hps.2.1 }
  | usingModel => exact { hp with model := by rintro _ ⟨⟩; exact hps.2.2.1 }

lemma worded_promptHead (h : Consists (.promptHead p) ps) (hps : AllWorded ps) : p.Worded := by
  cases h with
  | promptHead => exact ⟨hps.2.1, nofun, nofun⟩
  | promptHeadWith =>
    obtain ⟨-, hn, hmods, -⟩ := hps
    exact hmods ⟨hn, nofun, nofun⟩

lemma worded_agentProp (h : Consists (.agentProp a b) ps) (hps : AllWorded ps) (ha : a.Worded) : b.Worded := by
  cases h with
  | instruction => exact { ha with instruction := by rintro _ ⟨⟩; exact hps.2.1 }
  | agentRetry => exact { ha with retry := by rintro _ ⟨⟩; exact hps.2.1 }
  | agentTimeout => exact { ha with timeout := by rintro _ ⟨⟩; exact hps.2.1 }
  | description => exact { ha with }
  | tools => exact { ha with tools := forall_mem_append.2 ⟨ha.tools, hps.2.1⟩ }
  | delegate => exact { ha with delegate := forall_mem_append.2 ⟨ha.delegate, hps.2.1⟩ }
  | use => exact { ha with uses := forall_mem_append.2 ⟨ha.uses, hps.2.1⟩ }

lemma worded_decl (h : Consists (.decl d) ps) (hps : AllWorded ps) : d.Worded := by
  intro name hname
  cases h with
  | importDecl => exact nofun
  | model =>
    refine forall_mem_singleton.2 (Op.worded_of_labels rfl ?_)
    exact forall_mem_cons.2 ⟨hps.2.1, nofun⟩
  | modelWith =>
    obtain ⟨-, hn, -, -, -, -, -, hprops, -⟩ := hps
    refine forall_mem_singleton.2 (Op.worded_of_labels rfl (forall_mem_cons.2 ⟨hn, ?_⟩))
    intro s hs
    obtain ⟨e, he, rfl⟩ := mem_map.1 (Table.names_ofList hs)
    obtain ⟨p, hp, rfl⟩ := mem_map.1 he
    exact hprops p hp
  | schema =>
    obtain ⟨-, hn, -, -, -, hfields, -⟩ := hps
    refine forall_mem_singleton.2 (Op.worded_of_labels rfl (forall_mem_cons.2 ⟨hn, ?_⟩))
    intro s hs
    obtain ⟨field, hfield, rfl⟩ := mem_map.1 hs
    obtain ⟨f, hf, htype⟩ := mem_filterMap.1 hfield
    obtain ⟨_, -, rfl⟩ := Option.map_eq_some_iff.1 htype
    exact hfields f hf
  | tool | retry | retryBackoff | timeout | guardrail =>
    exact forall_mem_singleton.2 (Op.worded_of_labels rfl (forall_mem_singleton.2 hps.2.1))
  | prompt | promptEscalating => exact forall_mem_singleton.2 hps.1.op
  | agent =>
    obtain ⟨-, hn, -, -, -, hprops, -⟩ := hps
    rw [hname _ rfl]
    refine forall_mem_singleton.2 (AgentDef.Worded.op (hprops ?_))
    exact ⟨by rintro _ ⟨⟩; exact hn, nofun, nofun, nofun, nofun, nofun, nofun⟩
  | startAgent =>
    obtain ⟨-, -, -, -, hprops, -⟩ := hps
    rw [hname _ rfl]
    exact forall_mem_singleton.2 (AgentDef.Worded.op (hprops ⟨nofun, nofun, nofun, nofun, nofun, nofun, nofun⟩))
  | flow =>
    obtain ⟨-, hn, -, hbody, -⟩ := hps
    refine forall_mem_cons.2 ⟨Op.worded_of_labels rfl ?_, worded_block hbody _⟩
    exact forall_mem_cons.2 ⟨hn, nofun⟩
  | flowWith =>
    obtain ⟨-, hn, hparams, -, hbody, -⟩ := hps
    refine forall_mem_cons.2 ⟨Op.worded_of_labels rfl ?_, worded_block hbody _⟩
    exact forall_mem_cons.2 ⟨hn, forall_mem_map.2 hparams⟩
  | handler =>
    obtain ⟨-, -, hbody, -⟩ := hps
    exact forall_mem_cons.2 ⟨Op.worded_of_nameless rfl, worded_block hbody _⟩

lemma worded {p : Part} (h : p.Consists ps) (hps : AllWorded ps) : p.Worded := by
  cases p with
  | path =>
    cases h
    exact fun n hn => worded_of_mem hps (mem_flatMap.2 ⟨n, hn, mem_cons_of_mem _ mem_cons_self⟩)
  | exprs | entries | names =>
    cases h
    exact fun n hn => worded_of_mem hps (mem_commas (mem_map_of_mem hn))
  | params | stmts | arms | modelProps | fields | decls =>
    cases h
    exact fun n hn => worded_of_mem hps (mem_map_of_mem hn)
  | expr => exact worded_expr h hps
  | entry | escalateHandler | block =>
    cases h
    exact hps.2.2.1
  | invocation => exact worded_invocation h hps
  | escalateAction => exact worded_escalateAction h hps
  | simple => exact worded_simple h hps
  | stmt => exact worded_stmt h hps
  | doBlock | elseBranch =>
    cases h
    exact hps.2.2.2.1
  | arm => exact worded_arm h hps
  | modelProp | field =>
    cases h
    exact hps.1
  | promptMod => exact worded_promptMod h hps
  | promptMods =>
    cases h with
    | promptModsOne => exact hps.1
    | promptMods => exact fun hp => hps.2.1 (hps.1 hp)
  | promptHead => exact worded_promptHead h hps
  | agentProp => exact worded_agentProp h hps
  | agentProps =>
    cases h with
    | agentPropsOne => exact hps.1
    | agentProps => exact fun ha => hps.2.1 (hps.1 ha)
  | decl => exact worded_decl h hps
  | source =>
    cases h with
    | empty | versionOnly => exact nofun
    | source => exact hps.1
    | versionSource => exact hps.2.1
  | name | var => cases h
  | _ => trivial

end Consists

end Part

/-! ### Programs -/

mutual

theorem Written.worded (h : Written p tokens) (htokens : ∀ t ∈ tokens, t.Worded) : p.Worded := by
  match h with
  | .word _ | .mark | .text _ | .longText _ | .integer _ _ | .decimal _ => trivial
  | .name kind => exact (htokens _ mem_cons_self).1 kind
  | .var kind => exact (htokens _ mem_cons_self).2 kind
  | .parts consists written => exact consists.worded (written.worded htokens)

theorem WrittenAll.worded (h : WrittenAll ps tokens) (htokens : ∀ t ∈ tokens, t.Worded) : Part.AllWorded ps := by
  match h with
  | .nil => trivial
  | .cons first rest =>
    obtain ⟨hfirst, hrest⟩ := forall_mem_append.1 htokens
    exact ⟨first.worded hfirst, rest.worded hrest⟩

end

lemma Program.worded_of_ofSource {source name : String} (h : ofSource source name = .ok p) :
    ∀ d ∈ p.decls, d.Worded := by
  obtain ⟨raw, tokens, tree, hraw, htokens, rfl, hstands⟩ := stands_of_ofSource h
  exact hstands.written.worded (Token.worded_of_layout hraw htokens)

end Workflow
