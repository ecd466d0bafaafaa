import Workflow.Proofs.Lowering

/-!
What analysis approves. `Approved` says of a compiled block, with no word about how it was checked, that the
names it uses are defined, its statements stand where they may, and the variables it reads are in scope. A block
of a program without errors lowers to an approved one.
-/

namespace Workflow

open List Instr

variable {defs : Definitions} {span : Span} {scope : Scope}
  {onEscalate : Option (EscalateAction Expr)} {s : Stmt} {body ss : List Stmt}

/-! ### Approved blocks -/

mutual

def Term.Within (scope : Scope) : Term → Prop
  | .literal _ => True
  | .var name => name ∈ scope
  | .path name _ => name ∈ scope
  | .list items => Term.AllWithin scope items
  | .map entries => Term.EntriesWithin scope entries
  | .binary _ left right => left.Within scope ∧ right.Within scope
  | .not operand => operand.Within scope
  | .filter items _ _ value => items.Within scope ∧ value.Within scope

def Term.AllWithin (scope : Scope) : List Term → Prop
  | [] => True
  | t :: rest => t.Within scope ∧ Term.AllWithin scope rest

def Term.EntriesWithin (scope : Scope) : List (String × Term) → Prop
  | [] => True
  | (_, t) :: rest => t.Within scope ∧ Term.EntriesWithin scope rest

end

/-- The value that an escalation may return reads variables of a scope. -/
def EscalateAction.Within (scope : Scope) : Option (EscalateAction Term) → Prop
  | some (.ret value) => value.Within scope
  | _ => True

def Definitions.TakesArgs (defs : Definitions) (flow : String) (given : Nat) : Prop :=
  ∃ expected, defs.flowArity? flow = some expected ∧ (expected = given ∨ expected = 0)

/-- A guardrail is defined, or one of those that are always there. -/
def Definitions.KnowsGuardrail (defs : Definitions) (name : String) : Prop :=
  name ∈ builtinGuardrails ∨ defs.contains .guardrail name = true

/-- A statement without a block may stand in a scope; `guarded` says whether guardrail actions may. -/
def Op.Approved (defs : Definitions) (guarded : Bool) (scope : Scope) : Op → Prop
  | .assign _ value => value.Within scope
  | .setPath target _ value => target ∈ scope ∧ value.Within scope
  | .runAgent _ name args onEscalate => defs.contains .agent name = true ∧
      Term.AllWithin scope args ∧ EscalateAction.Within scope onEscalate
  | .callPrompt _ name args override onEscalate => defs.contains .prompt name = true ∧
      (∀ m ∈ override, defs.contains .model m = true) ∧ Term.AllWithin scope args ∧
      EscalateAction.Within scope onEscalate
  | .runFlow _ name args => defs.TakesArgs name args.length ∧ Term.AllWithin scope args
  | .parallel calls =>
    ∀ c ∈ calls, defs.contains .agent c.agent = true ∧ Term.AllWithin scope c.args
  | .ret value => value.Within scope
  | .continue => True
  | .abort message => ∀ value ∈ message, value.Within scope
  | .push value _ => value.Within scope
  | .log message => message.Within scope
  | .guard _ name _ => guarded = true ∧ defs.KnowsGuardrail name
  | _ => False

/-- The variables that a statement without a block gives values, if the next statement is reached. -/
def Op.defines : Op → List String
  | .assign target _ => [target]
  | .push _ target => [target]
  | .runAgent target .. => target.toList
  | .callPrompt target .. => target.toList
  | .runFlow target .. => target.toList
  | .parallel calls => calls.flatMap (·.target.toList)
  | _ => []

mutual

/-- A block that may stand in a scope, and the scope behind it. -/
inductive Approved (defs : Definitions) (guarded : Bool) : Scope → List Instr → Scope → Prop where
  | nil {scope : Scope} : Approved defs guarded scope [] scope
  | step {scope after : Scope} {line : Nat} {op : Op} {rest : List Instr} (approved : op.Approved defs guarded scope)
      (next : Approved defs guarded (scope.union op.defines) rest after) :
      Approved defs guarded scope (.mk line op [] :: rest) after
  | loop {scope inner after} {line} {max} {body rest} (inside : Approved defs guarded scope body inner)
      (next : Approved defs guarded scope rest after) :
      Approved defs guarded scope (.mk line (.loop max) body :: rest) after
  | forEach {scope inner after} {line} {var} {iterable} {body rest} (reads : iterable.Within scope)
      (inside : Approved defs guarded (scope.insert var) body inner)
      (next : Approved defs guarded scope rest after) :
      Approved defs guarded scope (.mk line (.forEach var iterable) body :: rest) after
  | branch {scope inner after} {line} {condition} {body rest}
      (reads : condition.Within scope) (inside : Approved defs guarded scope body inner)
      (next : Approved defs guarded scope rest after) :
      Approved defs guarded scope (.mk line (.branch condition) body :: rest) after
  | branchElse {scope inner other after} {line elseLine} {condition}
      {body elseBody rest} (reads : condition.Within scope)
      (inside : Approved defs guarded scope body inner)
      (insideElse : Approved defs guarded scope elseBody other)
      (next : Approved defs guarded (scope.union (inner.inter other)) rest after) :
      Approved defs guarded scope (.mk line (.branch condition) body :: .mk elseLine .otherwise elseBody :: rest) after
  | select {scope after} {line} {subject} {arms rest}
      (reads : subject.Within scope) (inside : ApprovedArms defs guarded scope arms)
      (next : Approved defs guarded scope rest after) :
      Approved defs guarded scope (.mk line (.select subject) arms :: rest) after

/-- Cases of a match that may stand in a scope. -/
inductive ApprovedArms (defs : Definitions) (guarded : Bool) : Scope → List Instr → Prop where
  | nil {scope : Scope} : ApprovedArms defs guarded scope []
  | arm {scope inner : Scope} {line : Nat} {pattern : Option Json} {body rest : List Instr}
      (inside : Approved defs guarded scope body inner) (next : ApprovedArms defs guarded scope rest) :
      ApprovedArms defs guarded scope (.mk line (.arm pattern) body :: rest)

end

/-- Kind and name of every definition are those of its declaration. -/
def Definitions.Faithful (defs : Definitions) : Prop :=
  ∀ d ∈ defs, d.decl.named? = some (d.kind, d.name, d.place)

lemma Definitions.Faithful.flowArity_isSome (hdefs : defs.Faithful) (h : defs.contains .flow name = true) :
    ∃ n, defs.flowArity? name = some n := by
  obtain ⟨⟨kind, other, file, place, decl⟩, hd⟩ := Option.isSome_iff_exists.1 h
  have hnamed := hdefs _ (List.mem_of_find?_eq_some hd)
  have hkind := List.find?_some hd
  simp only [Bool.and_eq_true, decide_eq_true_eq] at hkind
  rw [hkind.1] at hnamed
  cases decl with
  | flow f => exact ⟨f.params.length, by rw [Definitions.flowArity?, hd]⟩
  | _ => simp [Decl.named?] at hnamed

namespace Analysis

variable {c : Context} {invocation : Invocation} {target : Option Name} {name : Name}

/-! ### Problems that are no errors -/

def Harmless (problems : List Problem) : Prop := ∀ p ∈ problems, p.cause.code.severity ≠ .error

@[simp] lemma harmless_append {ps qs : List Problem} :
    Harmless (ps ++ qs) ↔ Harmless ps ∧ Harmless qs := forall_mem_append

lemma harmless_flatMap {α : Type} {as : List α} {f : α → List Problem} :
    Harmless (as.flatMap f) ↔ ∀ a ∈ as, Harmless (f a) := by
  simp only [Harmless, mem_flatMap]
  exact ⟨fun h a ha p hp => h p ⟨a, ha, hp⟩, fun h p ⟨a, ha, hp⟩ => h a ha p hp⟩

@[simp] lemma harmless_singleton : Harmless [⟨cause, span⟩] ↔ cause.code.severity ≠ .error := forall_mem_singleton

lemma contains_of_resolve {kind : DefKind} (h : Harmless (resolve defs kind name)) :
    defs.contains kind name.node = true := by
  unfold resolve at h
  split at h
  · assumption
  · exact absurd rfl (harmless_singleton.1 h)

lemma mem_of_read {name : String} (h : Harmless (read scope name span)) : name ∈ scope := by
  unfold read at h
  split at h
  · exact contains_iff_mem.1 ‹_›
  · exact absurd rfl (harmless_singleton.1 h)

mutual

theorem within_of_checkExpr : ∀ (e : Expr), Harmless (checkExpr scope e) → e.term.Within scope
  | .literal _ _, _ => trivial
  | .var _ _, h | .property _ _ _, h => mem_of_read h
  | .list items _, h => within_of_checkExprs items h
  | .map entries _, h => within_of_checkEntries entries h
  | .not operand _, h => within_of_checkExpr operand h
  | .binary _ left right _, h | .filter left _ _ _ right _, h =>
    have h := harmless_append.1 h
    ⟨within_of_checkExpr left h.1, within_of_checkExpr right h.2⟩

theorem within_of_checkExprs : ∀ (es : List Expr), Harmless (checkExprs scope es) → Term.AllWithin scope (Expr.terms es)
  | [], _ => trivial
  | e :: rest, h =>
    have h := harmless_append.1 h
    ⟨within_of_checkExpr e h.1, within_of_checkExprs rest h.2⟩

theorem within_of_checkEntries : ∀ (es : List (Name × Expr)),
    Harmless (checkEntries scope es) → Term.EntriesWithin scope (Expr.entryTerms es)
  | [], _ => trivial
  | (_, e) :: rest, h =>
    have h := harmless_append.1 h
    ⟨within_of_checkExpr e h.1, within_of_checkEntries rest h.2⟩

end

lemma within_of_checkOption {value : Option Expr} (h : Harmless (value.toList.flatMap (checkExpr scope))) :
    ∀ t ∈ value.map Expr.term, t.Within scope := by
  cases value with
  | none => simp
  | some e => simpa using within_of_checkExpr e (by simpa using h)

lemma within_of_checkEscalate (h : Harmless (checkEscalate scope c span onEscalate)) :
    EscalateAction.Within scope (onEscalate.map Lower.escalate) := by
  rcases onEscalate with - | value | - | -
  · trivial
  · exact within_of_checkExpr value h
  · trivial
  · trivial

lemma length_terms : ∀ es : List Expr, (Expr.terms es).length = es.length
  | [] => rfl
  | _ :: rest => congrArg (· + 1) (length_terms rest)

lemma takesArgs_of_checkTarget (hdefs : defs.Faithful) {args : List Expr}
    (h : Harmless (checkTarget defs span (.flow name args))) :
    defs.TakesArgs name.node (Expr.terms args).length := by
  rw [length_terms]
  simp only [checkTarget] at h
  split at h
  · next hnone =>
    obtain ⟨expected, hexpected⟩ := hdefs.flowArity_isSome (contains_of_resolve h)
    rw [hnone] at hexpected
    cases hexpected
  · next expected hexpected =>
    split at h
    · next hfits =>
      simp only [Bool.or_eq_true, Bool.and_eq_true, decide_eq_true_eq] at hfits
      exact ⟨expected, hexpected, hfits.imp_right And.left⟩
    · exact absurd rfl (harmless_singleton.1 h)

lemma approved_runOp (hdefs : defs.Faithful) {guarded : Bool}
    (h : Harmless (checkRun defs scope c invocation onEscalate span)) :
    (Lower.runOp target onEscalate invocation).Approved defs guarded scope := by
  simp only [checkRun, harmless_append] at h
  obtain ⟨⟨hargs, htarget⟩, hescalate⟩ := h
  have hargs := within_of_checkExprs _ hargs
  have hescalate := within_of_checkEscalate hescalate
  cases invocation with
  | agent name args => exact ⟨contains_of_resolve htarget, hargs, hescalate⟩
  | prompt name args model =>
    simp only [checkTarget, harmless_append, harmless_flatMap] at htarget
    refine ⟨contains_of_resolve htarget.1, ?_, hargs, hescalate⟩
    intro m hm
    obtain ⟨name, hname, rfl⟩ := Option.map_eq_some_iff.1 hm
    exact contains_of_resolve (htarget.2 name (Option.mem_toList.2 hname))
  | flow name args =>
    exact ⟨takesArgs_of_checkTarget hdefs htarget, hargs⟩

lemma defines_runOp : (Lower.runOp target onEscalate invocation).defines = target.toList.map (·.node) := by
  cases target <;> cases invocation <;> rfl

/-! ### The walk over statements -/

/-- A walk that goes on from another: it knows of its problems and of its failure block. -/
structure Walk.Extends (v w : Walk) : Prop where
  problems : ∀ p ∈ v.problems, p ∈ w.problems
  failureSeen : v.failureSeen = true → w.failureSeen = true

lemma Walk.Extends.refl (w : Walk) : w.Extends w := ⟨fun _ h => h, id⟩

lemma Walk.Extends.trans {u v w : Walk} (h : u.Extends v) (h' : v.Extends w) : u.Extends w :=
  ⟨fun p hp => h'.problems p (h.problems p hp), h'.failureSeen ∘ h.failureSeen⟩

lemma Walk.extends_report (w : Walk) (ps : List Problem) : w.Extends (w.report ps) :=
  ⟨fun _ hp => mem_append_left ps hp, id⟩

lemma Walk.extends_within (w : Walk) (scope : Scope) : w.Extends (w.within scope) :=
  ⟨fun _ h => h, id⟩

lemma Walk.extends_define (w : Walk) (name : String) : w.Extends (w.define name) :=
  ⟨fun _ h => h, id⟩

lemma Walk.Extends.harmless {v w : Walk} (h : v.Extends w) (hw : Harmless w.problems) :
    Harmless v.problems := fun p hp => hw p (h.problems p hp)

mutual

theorem extends_checkStmt : ∀ (s : Stmt) (c : Context) (w : Walk), w.Extends (checkStmt defs c w s)
  | .assign .., _, w | .push .., _, w => (w.extends_report _).trans (Walk.extends_define _ _)
  | .run .., _, w | .parallel .., _, w => (w.extends_report _).trans (Walk.extends_within _ _)
  | .loop _ body _, c, w => (extends_checkBlock body c.looped w).trans (Walk.extends_within _ _)
  | .forEach _ _ body _, c, w =>
    (((w.extends_report _).trans (Walk.extends_define _ _)).trans
      (extends_checkBlock body c.looped _)).trans (Walk.extends_within _ _)
  | .branch _ thenBody elseBody _, c, w =>
    ((((w.extends_report _).trans (extends_checkBlock thenBody c.nested _)).trans
      (Walk.extends_within _ _)).trans (extends_checkBlock elseBody c.nested _)).trans
      (Walk.extends_within _ _)
  | .select _ arms _, c, w => (w.extends_report _).trans (extends_checkArms arms c _)
  | .failure body span, c, w =>
    have first : w.Extends { w.report (failureProblems w c span) with failureSeen := true } :=
      ⟨(w.extends_report _).problems, fun _ => rfl⟩
    ((first.trans (Walk.extends_define _ _)).trans (extends_checkBlock body c.nested _)).trans (Walk.extends_within _ _)
  | .setPath .., _, w | .ret .., _, w | .continue .., _, w | .abort .., _, w | .log .., _, w
  | .guard .., _, w => w.extends_report _

theorem extends_checkBlock : ∀ (ss : List Stmt) (c : Context) (w : Walk), w.Extends (checkBlock defs c w ss)
  | [], _, w => .refl w
  | s :: rest, c, w => (extends_checkStmt s c w).trans (extends_checkBlock rest c _)

theorem extends_checkArms : ∀ (as : List Arm) (c : Context) (w : Walk), w.Extends (checkArms defs c w as)
  | [], _, w => .refl w
  | .mk _ body _ :: rest, c, w =>
    ((extends_checkStmt body c.nested w).trans (Walk.extends_within _ _)).trans (extends_checkArms rest c _)

end

/-- Guardrail actions may stand in handlers, those of the start aside. -/
def Context.guarded (c : Context) : Bool :=
  match c.handler with
  | none | some .start => false
  | some _ => true

lemma approved_guard (h : Harmless (checkGuard defs c g)) :
    (Op.guard g.kind g.guardrail.node (g.message.map (·.node))).Approved defs c.guarded scope := by
  simp only [checkGuard, harmless_append] at h
  obtain ⟨hplace, hknown⟩ := h
  constructor
  · unfold checkGuardPlace at hplace
    unfold Context.guarded
    cases hhandler : c.handler with
    | none => simp [hhandler, Cause.code, Code.severity] at hplace
    | some event =>
      cases event with
      | start => simp [hhandler, Cause.code, Code.severity] at hplace
      | _ => rfl
  · split at hknown
    · next hin =>
      rcases Bool.or_eq_true_iff.1 hin with hin | hin
      · exact .inl (contains_iff_mem.1 hin)
      · exact .inr hin
    · exact absurd rfl (harmless_singleton.1 hknown)

lemma branch_of_checkBranch (h : Harmless (checkBranch defs scope c s).1) : ∃ call, Lower.branch? s = some call ∧
      defs.contains .agent call.agent = true ∧ Term.AllWithin scope call.args ∧
      (checkBranch defs scope c s).2 = call.target.toList := by
  unfold checkBranch at h ⊢
  split at h
  · next target name args span =>
    simp only [checkRun, harmless_append] at h
    refine ⟨⟨name.node, Expr.terms args, target.map (·.node)⟩, rfl, contains_of_resolve h.1.2,
      within_of_checkExprs args h.1.1, ?_⟩
    cases target <;> rfl
  · exact absurd rfl (harmless_singleton.1 h)

lemma approved_parallel (guarded : Bool) :
    ∀ {body : List Stmt}, Harmless ((body.map (checkBranch defs scope c)).flatMap (·.1)) →
      (Op.parallel (body.filterMap Lower.branch?)).Approved defs guarded scope ∧
      (Op.parallel (body.filterMap Lower.branch?)).defines = (body.map (checkBranch defs scope c)).flatMap (·.2)
  | [], _ => ⟨nofun, rfl⟩
  | s :: rest, h => by
    rw [map_cons, flatMap_cons, harmless_append] at h
    obtain ⟨call, hcall, hagent, hargs, htarget⟩ := branch_of_checkBranch h.1
    obtain ⟨hrest, hdefines⟩ := approved_parallel guarded h.2
    rw [filterMap_cons_some hcall]
    constructor
    · exact forall_mem_cons.2 ⟨⟨hagent, hargs⟩, hrest⟩
    · simp only [Op.defines, flatMap_cons, map_cons, htarget] at hdefines ⊢
      rw [hdefines]

lemma approved_leaf {after : Scope} {op : Op} (his : bareAll is = [.mk 0 op []])
    (hop : op.Approved defs guarded scope) (hrest : Approved defs guarded (scope.union op.defines) rest after) :
    Approved defs guarded scope (is ++ rest) after := by
  obtain ⟨line, body, rfl, hbody⟩ := bareAll_eq_singleton his
  rw [bareAll_eq_nil.1 hbody]
  exact .step hop hrest

lemma checkArms_scope : ∀ (as : List Arm) (c : Context) (w : Walk), (checkArms defs c w as).scope = w.scope
  | [], _, _ => rfl
  | .mk _ body _ :: rest, c, w =>
    checkArms_scope rest c ((checkStmt defs c.nested w body).within w.scope)

end Analysis

def Stmt.failureBody? : Stmt → Option (List Stmt)
  | .failure body _ => some body
  | _ => none

/-- Statements without those that give a failure block. -/
def Stmt.steps (ss : List Stmt) : List Stmt := ss.filter (·.failureBody?.isNone)

def Stmt.failures (ss : List Stmt) : List (List Stmt) := ss.filterMap Stmt.failureBody?

lemma Stmt.eq_failure (h : s.failureBody? = some body) : ∃ span, s = .failure body span := by
  cases s <;> simp_all [Stmt.failureBody?]

lemma Stmt.steps_cons_none (h : s.failureBody? = none) :
    Stmt.steps (s :: ss) = s :: Stmt.steps ss := filter_cons_of_pos (by rw [h]; rfl)

lemma Stmt.steps_cons_some (h : s.failureBody? = some body) :
    Stmt.steps (s :: ss) = Stmt.steps ss := filter_cons_of_neg (by rw [h]; simp)

lemma Stmt.failures_cons_none (h : s.failureBody? = none) :
    Stmt.failures (s :: ss) = Stmt.failures ss := filterMap_cons_none h

lemma Stmt.failures_cons_some (h : s.failureBody? = some body) :
    Stmt.failures (s :: ss) = body :: Stmt.failures ss := filterMap_cons_some h

namespace Analysis

variable {c : Context}

mutual

theorem approved_stmt (hdefs : defs.Faithful) (s : Stmt) (c : Context) (w : Walk) {after : Scope}
    (htop : c.flowTop = true → s.failureBody? = none) (h : Harmless (checkStmt defs c w s).problems)
    (his : bareAll is = s.instrs) (hrest : Approved defs c.guarded (checkStmt defs c w s).scope rest after) :
    Approved defs c.guarded w.scope (is ++ rest) after := by
  cases s with
  | assign | push | log => exact approved_leaf his (within_of_checkExpr _ (harmless_append.1 h).2) hrest
  | setPath target path value =>
    have h := harmless_append.1 (harmless_append.1 h).2
    exact approved_leaf his ⟨mem_of_read h.1, within_of_checkExpr value h.2⟩ hrest
  | run => exact approved_leaf his (approved_runOp hdefs (harmless_append.1 h).2) (defines_runOp ▸ hrest)
  | parallel body =>
    have hbody := approved_parallel c.guarded (harmless_append.1 h).2
    exact approved_leaf his hbody.1 (hbody.2 ▸ hrest)
  | ret value =>
    cases value with
    | none => exact approved_leaf his trivial hrest
    | some value =>
      exact approved_leaf his (within_of_checkExpr value (by simpa using (harmless_append.1 h).2)) hrest
  | abort message => exact approved_leaf his (within_of_checkOption (harmless_append.1 h).2) hrest
  | guard => exact approved_leaf his (approved_guard (harmless_append.1 h).2) hrest
  | failure body span =>
    have hplace := (extends_checkBlock body c.nested _).harmless h
    have hproblem := (harmless_append.1 hplace).2
    cases hflow : c.flowTop with
    | true => exact absurd (htop hflow) (Option.some_ne_none body)
    | false => simp [failureProblems, hflow, Cause.code, Code.severity] at hproblem
  | loop max body =>
    obtain ⟨line, inner, rfl, hinner⟩ := bareAll_eq_singleton his
    exact .loop (approved_block hdefs body c.looped w rfl h hinner) hrest
  | forEach var iterable body =>
    obtain ⟨line, inner, rfl, hinner⟩ := bareAll_eq_singleton his
    have hreads := (extends_checkBlock body c.looped _).harmless h
    exact .forEach (within_of_checkExpr iterable (harmless_append.1 hreads).2)
      (approved_block hdefs body c.looped _ rfl h hinner) hrest
  | branch condition thenBody elseBody =>
    obtain ⟨line, inner, others, rfl, hinner, hothers⟩ := bareAll_eq_cons.1 his
    have hthen := (extends_checkBlock elseBody c.nested _).harmless h
    have hreads := (extends_checkBlock thenBody c.nested _).harmless hthen
    have hcondition := within_of_checkExpr condition (harmless_append.1 hreads).2
    have hinside := approved_block hdefs thenBody c.nested (w.report (checkExpr w.scope condition)) rfl hthen hinner
    cases elseBody with
    | nil =>
      rw [bareAll_eq_nil.1 hothers]
      exact .branch hcondition hinside hrest
    | cons first elseRest =>
      obtain ⟨elseLine, elseInner, rfl, helse⟩ := bareAll_eq_singleton hothers
      have hother := approved_block hdefs (first :: elseRest) c.nested
        ((checkBlock defs c.nested (w.report (checkExpr w.scope condition)) thenBody).within w.scope)
        rfl h helse
      exact .branchElse hcondition hinside hother hrest
  | select subject arms =>
    obtain ⟨line, inner, rfl, hinner⟩ := bareAll_eq_singleton his
    have hreads := (extends_checkArms arms c _).harmless h
    have hinside := approved_arms hdefs arms c (w.report (checkExpr w.scope subject)) h hinner
    have hscope : (checkArms defs c (w.report (checkExpr w.scope subject)) arms).scope = w.scope :=
      checkArms_scope arms c _
    exact .select (within_of_checkExpr subject (harmless_append.1 hreads).2) hinside (hscope ▸ hrest)
  | _ => exact approved_leaf his trivial hrest

theorem approved_block (hdefs : defs.Faithful) (ss : List Stmt) (c : Context) (w : Walk) (htop : c.flowTop = false)
    (h : Harmless (checkBlock defs c w ss).problems) (his : bareAll is = Stmt.allInstrs ss) :
    Approved defs c.guarded w.scope is (checkBlock defs c w ss).scope := by
  cases ss with
  | nil =>
    rw [bareAll_eq_nil.1 his]
    exact .nil
  | cons s ss =>
    obtain ⟨front, back, rfl, hfront, hback⟩ := bareAll_eq_append his
    refine approved_stmt hdefs s c w ?_ ((extends_checkBlock ss c _).harmless h) hfront
      (approved_block hdefs ss c _ htop h hback)
    intro htop'
    rw [htop] at htop'
    cases htop'

theorem approved_arms (hdefs : defs.Faithful) (as : List Arm) (c : Context) (w : Walk)
    (h : Harmless (checkArms defs c w as).problems) (his : bareAll is = Arm.allInstrs as) :
    ApprovedArms defs c.guarded w.scope is := by
  cases as with
  | nil =>
    rw [bareAll_eq_nil.1 his]
    exact .nil
  | cons a as =>
    obtain ⟨pattern, body, span⟩ := a
    obtain ⟨line, inner, others, rfl, hinner, hothers⟩ := bareAll_eq_cons.1 his
    have hbody := (extends_checkArms as c _).harmless h
    have hinside := approved_stmt hdefs body c.nested w (by simp [Context.nested]) hbody hinner .nil
    rw [append_nil] at hinside
    exact .arm hinside (approved_arms hdefs as c ((checkStmt defs c.nested w body).within w.scope) h hothers)

end

/-- In the body of a flow without an error there is at most one failure block, and both it and the
rest of the body are approved. -/
lemma approved_body (hdefs : defs.Faithful) (htop : c.flowTop = true) : ∀ (ss : List Stmt) (w : Walk),
    Harmless (checkBlock defs c w ss).problems →
    (w.failureSeen = true → Stmt.failures ss = []) ∧ (Stmt.failures ss).length ≤ 1 ∧
    (∀ is, bareAll is = Stmt.allInstrs (Stmt.steps ss) →
      Approved defs c.guarded w.scope is (checkBlock defs c w ss).scope) ∧
    ∀ body ∈ Stmt.failures ss, ∀ is, bareAll is = Stmt.allInstrs body →
      ∃ scope after, Approved defs c.guarded scope is after
  | [], w, _ => by
    refine ⟨fun _ => rfl, Nat.zero_le 1, fun is his => ?_, nofun⟩
    rw [bareAll_eq_nil.1 his]
    exact .nil
  | s :: ss, w, h => by
    obtain ⟨hnone, hcount, hsteps, hfailures⟩ :=
      approved_body hdefs htop ss (checkStmt defs c w s) h
    have hextends : w.Extends (checkStmt defs c w s) := extends_checkStmt s c w
    have hs := (extends_checkBlock ss c (checkStmt defs c w s)).harmless h
    cases hfailure : s.failureBody? with
    | none =>
      rw [Stmt.failures_cons_none hfailure, Stmt.steps_cons_none hfailure]
      refine ⟨fun hseen => hnone (hextends.failureSeen hseen), hcount, fun is his => ?_, hfailures⟩
      obtain ⟨front, back, rfl, hfront, hback⟩ := bareAll_eq_append his
      exact approved_stmt hdefs s c w (fun _ => hfailure) hs hfront (hsteps back hback)
    | some body =>
      obtain ⟨span, rfl⟩ := Stmt.eq_failure hfailure
      -- the walk inside the failure block, which knows that one has been seen
      have hinside := @extends_checkBlock defs body c.nested
        (Walk.define { w.report (failureProblems w c span) with failureSeen := true } "error")
      have hproblem := (harmless_append.1 (hinside.harmless hs)).2
      have hunseen : w.failureSeen = false := by
        simp only [failureProblems, htop, Bool.not_true, Bool.false_eq_true, if_false] at hproblem
        split at hproblem
        · exact absurd rfl (harmless_singleton.1 hproblem)
        · exact Bool.eq_false_iff.2 ‹_›
      have hrest : Stmt.failures ss = [] := hnone (hinside.failureSeen rfl)
      rw [Stmt.failures_cons_some hfailure, Stmt.steps_cons_some hfailure, hrest]
      refine ⟨fun hseen => ?_, Nat.le_refl 1, hsteps, fun b hb is his => ?_⟩
      · rw [hunseen] at hseen
        cases hseen
      · rw [mem_singleton.1 hb] at his
        exact ⟨_, _, approved_block hdefs body c.nested _ rfl hs his⟩

end Analysis

end Workflow
