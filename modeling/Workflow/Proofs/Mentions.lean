import Workflow.Proofs.Compilation

/-!
Names that must be defined. Analysis looks up every name that programs mention, in declarations and in
statements at any depth, and reports those that nothing defines, each at its own place. One place escapes it: a
statement that a parallel block does not allow is rejected as it stands.
-/

namespace Workflow

open List Definitions Cause

/-! ### Mentions -/

/-- An occurrence of a name that must be defined. -/
structure Mention where
  kind : DefKind
  name : Name
  /-- Whether it stands in a statement that a parallel block does not allow. -/
  rejected : Bool

/-- A mention in a statement that is not allowed. -/
def Mention.reject (m : Mention) : Mention := { m with rejected := true }

def mentionsOf (kind : DefKind) (names : List Name) : List Mention :=
  names.map fun name => ⟨kind, name, false⟩

def Invocation.mentions : Invocation → List Mention
  | .agent name _ => mentionsOf .agent [name]
  | .prompt name _ model => mentionsOf .prompt [name] ++ mentionsOf .model model.toList
  | .flow name _ => mentionsOf .flow [name]

namespace Stmt

/-- Whether a parallel block allows a statement: it runs an agent, without a word on escalation. -/
def isBranch : Stmt → Bool
  | .run _ (.agent _ _) none _ => true
  | _ => false

mutual

def mentions : Stmt → List Mention
  | .run _ invocation _ _ => invocation.mentions
  | .guard action => mentionsOf .guardrail [action.guardrail]
  | .parallel body _ => branchMentions body
  | .loop _ body _ | .forEach _ _ body _ | .failure body _ => blockMentions body
  | .branch _ thenBody elseBody _ => blockMentions thenBody ++ blockMentions elseBody
  | .select _ arms _ => armMentions arms
  | .assign .. | .setPath .. | .ret .. | .continue _ | .abort .. | .push .. | .log .. => []

def blockMentions : List Stmt → List Mention
  | [] => []
  | s :: rest => mentions s ++ blockMentions rest

/-- What the statements of a parallel block mention. -/
def branchMentions : List Stmt → List Mention
  | [] => []
  | s :: rest =>
    (if s.isBranch then mentions s else (mentions s).map .reject) ++ branchMentions rest

def armMentions : List Arm → List Mention
  | [] => []
  | .mk _ body _ :: rest => mentions body ++ armMentions rest

end

end Stmt

def AgentDef.mentions (a : AgentDef) : List Mention :=
  mentionsOf .prompt a.instruction.toList ++ mentionsOf .tool a.tools ++ mentionsOf .retry a.retry.toList
    ++ mentionsOf .timeout a.timeout.toList ++ mentionsOf .agent (a.delegate.getD [] ++ a.uses.getD [])

def Decl.mentions : Decl → List Mention
  | .prompt d => mentionsOf .model d.model.toList ++ mentionsOf .schema d.expecting.toList
  | .agent d => d.mentions
  | .flow d => Stmt.blockMentions d.body
  | .handler d => Stmt.blockMentions d.body
  | .importDecl _ | .model _ | .schema _ | .tool _ | .retry _ | .timeout _ | .guardrail _ => []

def declares (programs : List Program) (kind : DefKind) (name : String) : Bool :=
  programs.any fun p => p.decls.any fun d => d.named?.any fun named => named.1 = kind && named.2.1 = name

def builtinNames : DefKind → List String
  | .guardrail => builtinGuardrails
  | _ => []

/-- Everything that some programs mention and that is not defined, with the files that mention it. -/
def undefinedMentions (programs : List Program) : List (String × Mention) :=
  programs.flatMap fun p => ((p.decls.flatMap Decl.mentions).filter fun m =>
    !declares programs m.kind m.name.node && !(builtinNames m.kind).contains m.name.node).map (p.name, ·)

/-- The names that a mention may have meant, in increasing order. -/
def Definitions.candidates (defs : Definitions) : DefKind → List String
  | .guardrail => (defs.names .guardrail ++ builtinGuardrails).mergeSort fun a b => decide (a ≤ b)
  | kind => defs.names kind

def Mention.problem (defs : Definitions) (m : Mention) : Problem :=
  ⟨.undefined m.kind m.name.node (defs.candidates m.kind), m.name.span⟩

def Mention.diagnostic (defs : Definitions) (file : String) (m : Mention) : Diagnostic where
  code := .undefinedReference
  file := file
  line := m.name.span.line
  column := m.name.span.column
  length := max m.name.span.length 1
  message := "undefined " ++ m.kind.name ++ " '" ++ m.name.node ++ "'"
  help := (m.problem defs).cause.help

/-! ### The first definition counts -/

namespace Definitions

lemma find?_append (defs others : Definitions) (kind : DefKind) (name : String) :
    find? (defs ++ others) kind name = (defs.find? kind name).or (others.find? kind name) :=
  List.find?_append

lemma find?_declare (file : String) (state : Definitions × List Problem) (d : Decl) (kind : DefKind)
    (name : String) : (declare file state d).1.find? kind name =
      (state.1.find? kind name).or (find? (ofDecl? file d).toList kind name) := by
  obtain ⟨defs, problems⟩ := state
  unfold declare ofDecl?
  cases hnamed : d.named? with
  | none => simp [find?]
  | some named =>
    obtain ⟨kind', name', place⟩ := named
    cases hfind : defs.find? kind' name' with
    | none => simp [hfind, find?_append]
    | some first =>
      by_cases hkey : kind' = kind ∧ name' = name
      · obtain ⟨rfl, rfl⟩ := hkey
        simp [hfind]
      · have hother : find? [⟨kind', name', file, place, d⟩] kind name = none := by
          simpa [find?] using hkey
        simp [hfind, hother]

lemma find?_foldl_declare (file : String) (kind : DefKind) (name : String) : ∀ (ds : List Decl)
    (state : Definitions × List Problem), (ds.foldl (declare file) state).1.find? kind name =
      (state.1.find? kind name).or (find? (ds.filterMap (ofDecl? file)) kind name)
  | [], state => by simp [find?]
  | d :: ds, state => by
    have hcons : (d :: ds).filterMap (ofDecl? file) = (ofDecl? file d).toList ++ ds.filterMap (ofDecl? file) := by
      rw [filterMap_cons]
      cases ofDecl? file d <;> rfl
    rw [foldl_cons, find?_foldl_declare file kind name ds, find?_declare, hcons, find?_append, Option.or_assoc]

lemma find?_foldl_collect (kind : DefKind) (name : String) : ∀ (ps : List Program)
    (state : Definitions × List (String × Problem)), (ps.foldl collect state).1.find? kind name =
      (state.1.find? kind name).or ((listed ps).find? kind name)
  | [], state => by simp [listed, find?]
  | p :: ps, state => by
    have hcons : listed (p :: ps) = p.decls.filterMap (ofDecl? p.name) ++ listed ps := rfl
    rw [foldl_cons, find?_foldl_collect kind name ps, collect, hcons, find?_append, ← Option.or_assoc]
    exact congrArg (Option.or · _) (find?_foldl_declare p.name kind name p.decls (state.1, []))

lemma find?_ofPrograms (programs : List Program) (kind : DefKind) (name : String) :
    (ofPrograms programs).1.find? kind name = (listed programs).find? kind name := by
  rw [ofPrograms, find?_foldl_collect]
  rfl

lemma contains_ofPrograms (programs : List Program) (kind : DefKind) (name : String) :
    (ofPrograms programs).1.contains kind name = declares programs kind name := by
  rw [contains, find?_ofPrograms, find?, Bool.eq_iff_iff, List.find?_isSome]
  simp only [listed, declares, mem_flatMap, mem_filterMap, any_eq_true, ofDecl?,
    Option.map_eq_some_iff, Option.any_eq_true]
  constructor
  · rintro ⟨_, ⟨p, hp, d, hd, named, hnamed, rfl⟩, hkey⟩
    exact ⟨p, hp, d, hd, named, hnamed, hkey⟩
  · rintro ⟨p, hp, d, hd, named, hnamed, hkey⟩
    exact ⟨_, ⟨p, hp, d, hd, named, hnamed, rfl⟩, hkey⟩

end Definitions

namespace Analysis

/-! ### Problems with names -/

def unresolved (defs : Definitions) (ms : List Mention) : List Problem :=
  (ms.filter fun m => !m.rejected && !defs.contains m.kind m.name.node
    && !(builtinNames m.kind).contains m.name.node).map (·.problem defs)

variable (defs : Definitions) (scope : Scope)

@[simp] lemma unresolved_nil : unresolved defs [] = [] := rfl

@[simp] lemma unresolved_append (ms ns : List Mention) :
    unresolved defs (ms ++ ns) = unresolved defs ms ++ unresolved defs ns := by
  simp [unresolved]

@[simp] lemma unresolved_reject (ms : List Mention) : unresolved defs (ms.map .reject) = [] := by
  simp [unresolved, Mention.reject]

@[simp] lemma unresolved_mentionsOf (hkind : kind ≠ .guardrail) (names : List Name) :
    unresolved defs (mentionsOf kind names) = names.flatMap (resolve defs kind) := by
  have hbuiltin : builtinNames kind = [] := by cases kind <;> first | rfl | exact absurd rfl hkind
  have hcandidates : defs.candidates kind = defs.names kind := by
    cases kind <;> first | rfl | exact absurd rfl hkind
  induction names with
  | nil => rfl
  | cons name names ih =>
    rw [flatMap_cons, ← ih]
    by_cases hdefined : defs.contains kind name.node = true
    · simp [mentionsOf, unresolved, resolve, hdefined]
    · simp [mentionsOf, unresolved, resolve, hdefined, hbuiltin, hcandidates, Mention.problem]

/-- A problem is about names: about one that is not defined, or one that leads back to itself. -/
def aboutNames (p : Problem) : Bool :=
  p.cause.code = .undefinedReference || p.cause.code = .circularAgent

def named (ps : List Problem) : List Problem := ps.filter aboutNames

@[simp] lemma named_nil : named [] = [] := rfl

@[simp] lemma named_append (ps qs : List Problem) : named (ps ++ qs) = named ps ++ named qs :=
  filter_append ..

@[simp] lemma named_cons (cause : Cause) (span : Span) (ps : List Problem) : named (⟨cause, span⟩ :: ps) =
      if cause.code = .undefinedReference ∨ cause.code = .circularAgent then ⟨cause, span⟩ :: named ps
      else named ps := by
  simp [named, aboutNames, filter_cons]

@[simp] lemma named_ite {c : Prop} [Decidable c] : named (if c then ps else qs) = if c then named ps else named qs :=
  apply_ite named c ps qs

lemma named_flatMap {α : Type} (f : α → List Problem) (as : List α) :
    named (as.flatMap f) = as.flatMap fun a => named (f a) := filter_flatMap ..

@[simp] lemma named_resolve (kind : DefKind) (name : Name) :
    named (resolve defs kind name) = resolve defs kind name := by
  simp [resolve, code]

@[simp] lemma named_read (name : String) (span : Span) : named (read scope name span) = [] := by
  simp [read, code]

mutual

@[simp] theorem named_checkExpr : ∀ e : Expr, named (checkExpr scope e) = []
  | .literal _ _ => rfl
  | .var _ _ | .property _ _ _ => named_read scope _ _
  | .list items _ => named_checkExprs items
  | .map entries _ => named_checkEntries entries
  | .not operand _ => named_checkExpr operand
  | .binary .. | .filter .. => by simp [checkExpr, named_checkExpr]

@[simp] theorem named_checkExprs : ∀ es : List Expr, named (checkExprs scope es) = []
  | [] => rfl
  | e :: rest => by simp [checkExprs, named_checkExpr e, named_checkExprs rest]

@[simp] theorem named_checkEntries : ∀ es : List (Name × Expr), named (checkEntries scope es) = []
  | [] => rfl
  | (_, e) :: rest => by simp [checkEntries, named_checkExpr e, named_checkEntries rest]

end

@[simp] lemma named_checkOption (value : Option Expr) :
    named (value.toList.flatMap (checkExpr scope)) = [] := by simp [named_flatMap]

lemma named_checkTarget (span : Span) (invocation : Invocation) :
    named (checkTarget defs span invocation) = unresolved defs invocation.mentions := by
  cases invocation with
  | agent name args => simp [checkTarget, Invocation.mentions]
  | prompt name args model => simp [checkTarget, Invocation.mentions, named_flatMap]
  | flow name args =>
    simp only [checkTarget, Invocation.mentions]
    cases harity : defs.flowArity? name.node with
    | none => simp
    | some expected =>
      have hfound : defs.contains .flow name.node = true := by
        unfold flowArity? at harity
        unfold Definitions.contains
        split at harity <;> simp_all
      simp [resolve, hfound, code]

@[simp] lemma named_checkRun (c : Context) (invocation : Invocation)
    (onEscalate : Option (EscalateAction Expr)) (span : Span) :
    named (checkRun defs scope c invocation onEscalate span) = unresolved defs invocation.mentions := by
  have hescalate : named (checkEscalate scope c span onEscalate) = [] := by
    unfold checkEscalate
    split <;> simp [code]
  simp [checkRun, named_checkTarget, hescalate]

@[simp] lemma named_checkGuard (c : Context) (action : GuardAction) :
    named (checkGuard defs c action) = unresolved defs (mentionsOf .guardrail [action.guardrail]) := by
  have hplace : named (checkGuardPlace c action) = [] := by
    unfold checkGuardPlace
    split <;> simp [code]
  by_cases hbuiltin : action.guardrail.node ∈ builtinGuardrails
  · simp [checkGuard, hplace, unresolved, mentionsOf, builtinNames, hbuiltin]
  · by_cases hdefined : defs.contains .guardrail action.guardrail.node = true
    · simp [checkGuard, hplace, unresolved, mentionsOf, hdefined]
    · simp [checkGuard, hplace, unresolved, mentionsOf, builtinNames, hbuiltin, hdefined, code, Mention.problem, candidates]

lemma named_checkBranch (c : Context) (s : Stmt) : named (checkBranch defs scope c s).1 =
    unresolved defs (if s.isBranch then s.mentions else s.mentions.map .reject) := by
  unfold checkBranch Stmt.isBranch
  split
  · simp [Stmt.mentions]
  · simp [code]

lemma named_checkBranches (c : Context) (body : List Stmt) :
    named ((body.map (checkBranch defs scope c)).flatMap (·.1)) = unresolved defs (Stmt.branchMentions body) := by
  induction body with
  | nil => rfl
  | cons s rest ih => simp [Stmt.branchMentions, named_checkBranch, ih]

@[simp] lemma Walk.report_problems (w : Walk) (ps : List Problem) : (w.report ps).problems = w.problems ++ ps := rfl

@[simp] lemma Walk.define_problems (w : Walk) (name : String) : (w.define name).problems = w.problems := rfl

@[simp] lemma Walk.within_problems (w : Walk) (scope : Scope) : (w.within scope).problems = w.problems := rfl

@[simp] lemma named_failureProblems (w : Walk) (c : Context) (span : Span) :
    named (failureProblems w c span) = [] := by
  simp [failureProblems, code]

mutual

theorem named_checkStmt : ∀ (s : Stmt) (c : Context) (w : Walk),
    named (checkStmt defs c w s).problems = named w.problems ++ unresolved defs s.mentions
  | .assign .., _, _ | .setPath .., _, _ | .run .., _, _ | .ret .., _, _ | .abort .., _, _
  | .push .., _, _ | .log .., _, _ | .guard _, _, _ | .continue _, _, _ | .parallel .., _, _ => by
    simp [checkStmt, Stmt.mentions, named_checkBranches, code]
  | .loop .., _, _ | .forEach .., _, _ | .branch .., _, _ | .select .., _, _ | .failure .., _, _ => by
    simp [checkStmt, Stmt.mentions, named_checkBlock, named_checkArms]

theorem named_checkBlock : ∀ (ss : List Stmt) (c : Context) (w : Walk),
    named (checkBlock defs c w ss).problems = named w.problems ++ unresolved defs (Stmt.blockMentions ss)
  | [], _, _ => by simp [checkBlock, Stmt.blockMentions]
  | s :: rest, c, w => by
    simp [checkBlock, Stmt.blockMentions, named_checkBlock rest, named_checkStmt s]

theorem named_checkArms : ∀ (as : List Arm) (c : Context) (w : Walk),
    named (checkArms defs c w as).problems = named w.problems ++ unresolved defs (Stmt.armMentions as)
  | [], _, _ => by simp [checkArms, Stmt.armMentions]
  | .mk _ body _ :: rest, c, w => by
    simp [checkArms, Stmt.armMentions, named_checkArms rest, named_checkStmt body]

end

lemma named_checkFields : ∀ (fields : List FieldDef) (seen : List String), named (checkFields defs seen fields) = []
  | [], _ => rfl
  | f :: rest, seen => by
    have hrest := named_checkFields rest (f.name.node :: seen)
    simp only [checkFields, named_append, hrest]
    cases unknownType? f.type <;> simp [code]

lemma named_checkAgent (a : AgentDef) : named (checkAgent defs a) = unresolved defs a.mentions := by
  unfold checkAgent AgentDef.mentions
  cases a.instruction <;> simp [named_flatMap, code]

lemma named_checkParams (globals : Scope) : ∀ (params : List Name) (scope : Scope),
    named (checkParams globals scope params).2 = []
  | [], _ => rfl
  | p :: rest, scope => by
    have hrest := named_checkParams globals rest (scope.insert p.node)
    simp [checkParams, hrest, code]

lemma named_checkDecl (globals : Scope) (d : Decl) :
    named (checkDecl defs globals d) = unresolved defs d.mentions := by
  cases d with
  | importDecl d | tool d => rfl
  | schema d => exact named_checkFields defs d.fields []
  | guardrail d =>
    simp only [checkDecl]
    split <;> simp [Decl.mentions, code]
  | agent d => exact named_checkAgent defs d
  | _ => simp [checkDecl, checkModel, checkFlow, checkHandler, Decl.mentions, named_flatMap, named_checkParams,
      named_checkBlock, code]

/-! ### Problems of programs -/

lemma named_declare (file : String) (state : Definitions × List Problem) (d : Decl) :
    named (declare file state d).2 = named state.2 := by
  unfold declare
  dsimp only
  split
  · rfl
  · split <;> simp [code]

lemma named_foldl_declare (file : String) : ∀ (ds : List Decl) (state : Definitions × List Problem),
    named (ds.foldl (declare file) state).2 = named state.2
  | [], _ => rfl
  | d :: ds, state => by rw [foldl_cons, named_foldl_declare file ds, named_declare]

def namedIn (ps : List (String × Problem)) : List (String × Problem) := ps.filter fun q => aboutNames q.2

lemma namedIn_map (file : String) (ps : List Problem) :
    namedIn (ps.map fun q => (file, q)) = (named ps).map fun q => (file, q) := by
  simp [namedIn, named, filter_map, Function.comp_def]

lemma namedIn_foldl_collect : ∀ (ps : List Program) (state : Definitions × List (String × Problem)),
    namedIn (ps.foldl collect state).2 = namedIn state.2
  | [], _ => rfl
  | p :: ps, state => by
    rw [foldl_cons, namedIn_foldl_collect ps, collect, namedIn, filter_append]
    have hown := namedIn_map p.name (p.decls.foldl (declare p.name) (state.1, [])).2
    rw [named_foldl_declare, named_nil, map_nil] at hown
    rw [← namedIn, ← namedIn, hown, append_nil]

lemma code_of_cycleProblems {defs : Definitions} {q : String × Problem} (h : q ∈ cycleProblems defs) :
    q.2.cause.code = .circularAgent := by
  obtain ⟨cycle, -, heq⟩ := mem_filterMap.1 h
  obtain ⟨first, -, heq⟩ := Option.bind_eq_some_iff.1 heq
  obtain ⟨d, -, heq⟩ := Option.bind_eq_some_iff.1 heq
  cases heq
  rfl

/-- The problems of some programs with names that are not defined, each with its file. -/
def undefinedProblems (programs : List Program) : List (String × Problem) :=
  programs.flatMap fun p => (unresolved (ofPrograms programs).1
    (p.decls.flatMap Decl.mentions)).map fun q => (p.name, q)

lemma code_of_undefinedProblems {programs : List Program} {q : String × Problem}
    (h : q ∈ undefinedProblems programs) : q.2.cause.code = .undefinedReference := by
  obtain ⟨p, -, h⟩ := mem_flatMap.1 h
  obtain ⟨problem, hproblem, rfl⟩ := mem_map.1 h
  obtain ⟨m, -, rfl⟩ := mem_map.1 hproblem
  rfl

/-- A problem about names is about a name that is not defined or about agents that lead back to
themselves. -/
lemma namedIn_problems (programs : List Program) : namedIn (problems programs) =
    undefinedProblems programs ++ cycleProblems (ofPrograms programs).1 := by
  have hduplicates : namedIn (ofPrograms programs).2 = [] :=
    namedIn_foldl_collect programs ([], [])
  have hcycles : namedIn (cycleProblems (ofPrograms programs).1) = cycleProblems (ofPrograms programs).1 := by
    refine filter_eq_self.2 fun q hq => ?_
    simp [aboutNames, code_of_cycleProblems hq]
  have hdecls : ∀ ds : List Decl, named (ds.flatMap (checkDecl (ofPrograms programs).1
      (globals programs))) = unresolved (ofPrograms programs).1 (ds.flatMap Decl.mentions) := by
    intro ds
    induction ds with
    | nil => rfl
    | cons d ds ih => simp [named_checkDecl, ih]
  have hchecks : namedIn (programs.flatMap fun p => (p.decls.flatMap (checkDecl
      (ofPrograms programs).1 (globals programs))).map fun q => (p.name, q)) =
      undefinedProblems programs := by
    rw [namedIn, filter_flatMap, undefinedProblems]
    refine flatMap_congr fun p _ => ?_
    rw [← namedIn, namedIn_map, hdecls]
  rw [problems, namedIn, filter_append, filter_append, ← namedIn, ← namedIn, ← namedIn]
  rw [hduplicates, hchecks, hcycles, nil_append]

lemma filter_problems (programs : List Program) :
    (problems programs).filter (fun q => q.2.cause.code = .undefinedReference) = undefinedProblems programs := by
  have habout : (problems programs).filter (fun q => q.2.cause.code = .undefinedReference) =
      (namedIn (problems programs)).filter fun q => q.2.cause.code = .undefinedReference := by
    rw [namedIn, filter_filter]
    refine filter_congr fun q _ => ?_
    by_cases hcode : q.2.cause.code = .undefinedReference <;> simp [aboutNames, hcode]
  have hcycles : (cycleProblems (ofPrograms programs).1).filter
      (fun q => q.2.cause.code = .undefinedReference) = [] := by
    refine filter_eq_nil_iff.2 fun q hq => ?_
    simp [code_of_cycleProblems hq]
  rw [habout, namedIn_problems, filter_append, hcycles, append_nil]
  refine filter_eq_self.2 fun q hq => ?_
  simp [code_of_undefinedProblems hq]

lemma diagnostics_undefinedProblems (programs : List Program) :
    (undefinedProblems programs).map (fun q => q.2.toDiagnostic q.1) =
      ((undefinedMentions programs).filter fun q => !q.2.rejected).map fun q =>
        q.2.diagnostic (ofPrograms programs).1 q.1 := by
  simp only [undefinedProblems, undefinedMentions, unresolved, map_flatMap, filter_flatMap,
    map_map, filter_map, filter_filter, contains_ofPrograms]
  refine flatMap_congr fun p _ => ?_
  have hsame : ∀ m : Mention, (!m.rejected && !declares programs m.kind m.name.node
      && !(builtinNames m.kind).contains m.name.node) = (!m.rejected && (!declares programs m.kind
      m.name.node && !(builtinNames m.kind).contains m.name.node)) := fun m => Bool.and_assoc ..
  simp only [hsame]
  rfl

/-- Analysis reports, in one pass over all programs, the names that they mention and do not define: one
diagnostic for each mention, with its file and place, and none beside these. It leaves out what stands in a
statement that a parallel block does not allow, so that everything is reported iff nothing undefined is
mentioned there. -/
theorem undefined_references_reported (root : Program) (imports : List Program) :
    let found := (analyze root imports).diagnostics.filter fun d => d.code = .undefinedReference
    let missing := undefinedMentions (root :: imports)
    let diagnostic := fun q : String × Mention => q.2.diagnostic (analyze root imports).definitions q.1
    found.Perm ((missing.filter fun q => !q.2.rejected).map diagnostic) ∧
      (found.Perm (missing.map diagnostic) ↔ ∀ q ∈ missing, q.2.rejected = false) := by
  intro found missing diagnostic
  have hfound : found.Perm ((missing.filter fun q => !q.2.rejected).map diagnostic) := by
    have hsorted : found.Perm (((problems (root :: imports)).map fun q => q.2.toDiagnostic q.1).filter
        fun d => d.code = .undefinedReference) := (mergeSort_perm _ _).filter _
    refine hsorted.trans (List.Perm.of_eq ?_)
    rw [filter_map]
    exact (congrArg (List.map _) (filter_problems _)).trans (diagnostics_undefinedProblems _)
  refine ⟨hfound, fun hall => ?_, fun hnone => ?_⟩
  · have hlength := hfound.length_eq.symm.trans hall.length_eq
    rw [length_map, length_map, length_filter_eq_length_iff] at hlength
    intro q hq
    simpa using hlength q hq
  · rwa [filter_eq_self.2 fun q hq => by simp [hnone q hq]] at hfound

/-- A flow that no program defines is named in a parallel block, which does not allow flows. -/
theorem undefined_reference_hidden : ∃ root,
    Program.ofSource "flow f:\n  parallel do\n    run flow ghost\n  end\n" "main.wv" = .ok root ∧
    (analyze root []).diagnostics.map (fun d => (d.code, d.line, d.column)) = [(.misplacedStatement, 3, 5)] ∧
    (undefinedMentions [root]).map (fun q => (q.1, q.2.kind, q.2.name.node, q.2.name.span.line,
      q.2.name.span.column)) = [("main.wv", .flow, "ghost", 3, 14)] := by
  have hroot : (Program.ofSource "flow f:\n  parallel do\n    run flow ghost\n  end\n"
      "main.wv").toOption.any (fun root => (analyze root []).diagnostics.map
        (fun d => (d.code, d.line, d.column)) = [(.misplacedStatement, 3, 5)] ∧
      (undefinedMentions [root]).map (fun q => (q.1, q.2.kind, q.2.name.node, q.2.name.span.line,
        q.2.name.span.column)) = [("main.wv", .flow, "ghost", 3, 14)]) = true := by decide +kernel
  obtain ⟨root, hroot, hfacts⟩ := Except.of_any hroot
  exact ⟨root, hroot, of_decide_eq_true hfacts⟩

end Analysis

end Workflow
