import Workflow.Compile.Session
import Workflow.Proofs.Compilation
import Workflow.Proofs.Scopes

/-!
Units whose parts fit together. In a unit made of programs without errors every name that is referred to has its
entry, and all blocks are approved: those of flows in the scope of the globals, the input and the parameters,
those of handlers, one behind the other, in that of the globals and the input.
-/

namespace Workflow

open List Definitions Analysis Scope Lower Instr Stmt

variable {name : String} {ds : List Decl} {event : HandlerEvent} {defs : Definitions} {programs : List Program}
  {block : List Instr} {scope : Scope} {α : Type} {a : α} {t : Table α}

/-! ### Larger scopes -/

section

variable {guarded : Bool} {scope' : Scope}

mutual

theorem Term.within_mono (hsub : scope ⊆ scope') : ∀ t : Term, t.Within scope → t.Within scope'
  | .literal _, _ => trivial
  | .var _, h | .path .., h => hsub h
  | .list items, h => Term.allWithin_mono hsub items h
  | .map entries, h => Term.entriesWithin_mono hsub entries h
  | .not operand, h => operand.within_mono hsub h
  | .binary _ left right, h | .filter left _ _ right, h => ⟨left.within_mono hsub h.1, right.within_mono hsub h.2⟩

theorem Term.allWithin_mono (hsub : scope ⊆ scope') : ∀ ts : List Term,
    Term.AllWithin scope ts → Term.AllWithin scope' ts
  | [], _ => trivial
  | t :: rest, h => ⟨t.within_mono hsub h.1, Term.allWithin_mono hsub rest h.2⟩

theorem Term.entriesWithin_mono (hsub : scope ⊆ scope') : ∀ ts : List (String × Term),
    Term.EntriesWithin scope ts → Term.EntriesWithin scope' ts
  | [], _ => trivial
  | (_, t) :: rest, h => ⟨t.within_mono hsub h.1, Term.entriesWithin_mono hsub rest h.2⟩

end

variable (hsub : scope ⊆ scope')

include hsub

lemma EscalateAction.Within.mono : ∀ {action : Option (EscalateAction Term)}, EscalateAction.Within scope action →
      EscalateAction.Within scope' action
  | some (.ret value), h => value.within_mono hsub h
  | none, _ | some .continue, _ | some .abort, _ => trivial

lemma Op.Approved.mono {op : Op} (h : op.Approved defs guarded scope) : op.Approved defs guarded scope' := by
  cases op with
  | assign | ret | push | log => exact Term.within_mono hsub _ h
  | setPath target path value => exact ⟨hsub h.1, Term.within_mono hsub _ h.2⟩
  | runAgent target name args onEscalate =>
    exact ⟨h.1, Term.allWithin_mono hsub _ h.2.1, EscalateAction.Within.mono hsub h.2.2⟩
  | callPrompt target name args override onEscalate =>
    exact ⟨h.1, h.2.1, Term.allWithin_mono hsub _ h.2.2.1, EscalateAction.Within.mono hsub h.2.2.2⟩
  | runFlow target name args => exact ⟨h.1, Term.allWithin_mono hsub _ h.2⟩
  | parallel branches => exact fun b hb => ⟨(h b hb).1, Term.allWithin_mono hsub _ (h b hb).2⟩
  | abort message => exact fun value hvalue => Term.within_mono hsub _ (h value hvalue)
  | _ => exact h

end

lemma Scope.insert_subset (h : scope ⊆ scope') (other : String) : insert scope other ⊆ insert scope' other :=
  fun _ hname => mem_insert.2 ((mem_insert.1 hname).imp_right (@h _))

lemma Scope.union_subset {names names' : List String} (h : scope ⊆ scope') (h' : names ⊆ names') :
    union scope names ⊆ union scope' names' :=
  fun _ hname => mem_union.2 ((mem_union.1 hname).imp (@h _) (@h' _))

lemma Scope.subset_union {names : List String} : scope ⊆ union scope names :=
  fun _ hname => mem_union.2 (.inl hname)

section

variable {guarded : Bool}

mutual

theorem Approved.mono : ∀ {scope after : Scope} {is : List Instr}, Approved defs guarded scope is after →
    ∀ {scope' : Scope}, scope ⊆ scope' →
      ∃ after', Approved defs guarded scope' is after' ∧ after ⊆ after' ∧ scope' ⊆ after'
  | _, _, _, .nil, scope', hsub => ⟨scope', .nil, hsub, .refl _⟩
  | _, _, _, .step approved next, scope', hsub => by
    refine (next.mono (union_subset hsub (.refl _))).imp fun _ h => ⟨.step (approved.mono hsub) h.1, h.2.1, ?_⟩
    exact List.Subset.trans subset_union h.2.2
  | _, _, _, .loop inside next, scope', hsub => by
    obtain ⟨inner', hinside, -⟩ := inside.mono hsub
    exact (next.mono hsub).imp fun _ h => ⟨.loop hinside h.1, h.2⟩
  | _, _, _, .forEach reads inside next, scope', hsub => by
    obtain ⟨inner', hinside, -⟩ := inside.mono (insert_subset hsub _)
    exact (next.mono hsub).imp fun _ h => ⟨.forEach (Term.within_mono hsub _ reads) hinside h.1, h.2⟩
  | _, _, _, .branch reads inside next, scope', hsub => by
    obtain ⟨inner', hinside, -⟩ := inside.mono hsub
    exact (next.mono hsub).imp fun _ h => ⟨.branch (Term.within_mono hsub _ reads) hinside h.1, h.2⟩
  | _, _, _, .branchElse reads inside insideElse next, scope', hsub => by
    obtain ⟨inner', hinside, hinner, -⟩ := inside.mono hsub
    obtain ⟨other', helse, hother, -⟩ := insideElse.mono hsub
    obtain ⟨after', hnext, hafter, hscope⟩ := next.mono (union_subset hsub
      fun _ hname => mem_inter.2 ((mem_inter.1 hname).imp (@hinner _) (@hother _)))
    exact ⟨after', .branchElse (Term.within_mono hsub _ reads) hinside helse hnext, hafter,
      List.Subset.trans subset_union hscope⟩
  | _, _, _, .select reads inside next, _, hsub => (next.mono hsub).imp fun _ h =>
    ⟨.select (Term.within_mono hsub _ reads) (inside.mono hsub) h.1, h.2⟩

theorem ApprovedArms.mono : ∀ {scope : Scope} {is : List Instr}, ApprovedArms defs guarded scope is →
    ∀ {scope' : Scope}, scope ⊆ scope' → ApprovedArms defs guarded scope' is
  | _, _, .nil, _, _ => .nil
  | _, _, .arm inside next, scope', hsub => by
    obtain ⟨inner', hinside, -⟩ := inside.mono hsub
    exact .arm hinside (next.mono hsub)

end

lemma Approved.append : ∀ {scope mid : Scope} {is js : List Instr}, Approved defs guarded scope is mid →
    ∀ {after : Scope}, Approved defs guarded mid js after → Approved defs guarded scope (is ++ js) after
  | _, _, _, _, .nil, _, hjs => hjs
  | _, _, _, _, .step approved next, _, hjs => .step approved (next.append hjs)
  | _, _, _, _, .loop inside next, _, hjs => .loop inside (next.append hjs)
  | _, _, _, _, .forEach reads inside next, _, hjs => .forEach reads inside (next.append hjs)
  | _, _, _, _, .branch reads inside next, _, hjs => .branch reads inside (next.append hjs)
  | _, _, _, _, .branchElse reads inside insideElse next, _, hjs =>
    .branchElse reads inside insideElse (next.append hjs)
  | _, _, _, _, .select reads inside next, _, hjs => .select reads inside (next.append hjs)

end

/-! ### Names with entries -/

lemma Table.get?_eq_some : ∀ {t : Table α}, t.names.Nodup → (t.get? name = some a ↔ (name, a) ∈ t)
  | [], _ => by simp
  | (k, v) :: rest, h => by
    obtain ⟨hk, hrest⟩ := nodup_cons.1 h
    rw [get?_cons, mem_cons]
    split
    · next heq =>
      subst heq
      refine ⟨fun hv => .inl (by rw [Option.some.inj hv]), fun hv => ?_⟩
      rcases hv with hv | hv
      · cases hv
        rfl
      · exact absurd (mem_map.2 ⟨_, hv, rfl⟩) hk
    · next hne =>
      rw [get?_eq_some hrest]
      exact ⟨.inr, fun hv => hv.resolve_left fun heq => hne (congrArg Prod.fst heq).symm⟩

lemma Table.Holds.get? {entries : List (String × α)} (h : t.Holds entries) :
    t.get? name = some a ↔ (name, a) ∈ entries :=
  (Table.get?_eq_some h.1).trans h.2.mem_iff

namespace Definitions

lemma decl_of_mem (h : d ∈ listed programs) : d.decl ∈ decls programs ∧ d.decl.key? = some (d.kind, d.name) := by
  obtain ⟨p, hp, hmem⟩ := mem_listed h
  refine ⟨mem_flatMap.2 ⟨p, hp, hmem⟩, ?_⟩
  rw [Decl.key?, faithful_listed programs d h]
  rfl

lemma decl_of_contains (h : (listed programs).contains kind name = true) :
    ∃ d ∈ decls programs, d.key? = some (kind, name) := by
  obtain ⟨d, hd⟩ := Option.isSome_iff_exists.1 h
  have heq := List.find?_some hd
  simp only [Bool.and_eq_true, decide_eq_true_eq] at heq
  obtain ⟨hdecl, hkey⟩ := decl_of_mem (List.mem_of_find?_eq_some hd)
  exact ⟨d.decl, hdecl, by rw [hkey, heq.1, heq.2]⟩

lemma flow_of_arity (h : (listed programs).flowArity? name = some expected) :
    ∃ f : FlowDef, .flow f ∈ decls programs ∧ f.name.node = name ∧ f.params.length = expected := by
  unfold flowArity? at h
  split at h
  · next kind other file place f hfind =>
    have heq := List.find?_some hfind
    simp only [Bool.and_eq_true, decide_eq_true_eq] at heq
    obtain ⟨hdecl, hkey⟩ := decl_of_mem (List.mem_of_find?_eq_some hfind)
    cases h
    cases hkey
    exact ⟨f, hdecl, heq.2, rfl⟩
  · cases h

end Definitions

/-- A unit has a flow that takes so many arguments: one for each parameter, or any number if it has
none. -/
def CompiledUnit.Takes (u : CompiledUnit) (name : String) (given : Nat) : Prop :=
  ∃ f, u.flows.get? name = some f ∧ (f.params.length = given ∨ f.params = [])

/-- A unit whose parts fit together: all that agents, prompts and statements name has its entry, and every block
is approved in its scope. -/
structure CompiledUnit.Linked (u : CompiledUnit) (defs : Definitions) (globals : Scope) : Prop where
  model : ∀ {name}, defs.contains .model name = true → ∃ m, u.models.get? name = some m
  prompt : ∀ {name}, defs.contains .prompt name = true → ∃ p, u.prompts.get? name = some p
  promptModel : ∀ {name p}, u.prompts.get? name = some p → ∀ model ∈ p.model, ∃ m, u.models.get? model = some m
  promptSchema : ∀ {name p}, u.prompts.get? name = some p → ∀ schema ∈ p.expecting, ∃ s, u.schemas.get? schema = some s
  agent : ∀ {name}, defs.contains .agent name = true → ∃ a, u.agents.get? name = some a
  instruction : ∀ {name a}, u.agents.get? name = some a → ∃ p, u.prompts.get? a.instruction = some p
  guardrail : ∀ {name}, defs.contains .guardrail name = true → ∃ g ∈ u.guardrails.map (·.2), g.name = name
  flow : ∀ {name given}, defs.TakesArgs name given → u.Takes name given
  body : ∀ {name f}, u.flows.get? name = some f → ∃ scope after, Approved defs false scope f.body after ∧
    ∀ var ∈ scope, var ∈ globals ∨ var = "input" ∨ var ∈ f.params
  failure : ∀ {name f}, u.flows.get? name = some f → ∀ block ∈ f.onFailure,
    ∃ scope after, Approved defs false scope block after
  handler : ∀ {event block}, u.handler? event = some block →
    ∃ scope after, Approved defs (event != .start) scope block after ∧
      (event ≠ .start → ∀ var ∈ scope, var ∈ globals ∨ var = "input")

/-! ### Scopes of flows and handlers -/

namespace Analysis

lemma mem_checkParams {globals : Scope} {var : String} : ∀ {params scope},
    var ∈ (checkParams globals scope params).1 ↔ var ∈ scope ∨ var ∈ plainNames params
  | [], _ => ⟨.inl, fun h => h.resolve_right not_mem_nil⟩
  | p :: rest, scope => by
    refine (@mem_checkParams globals var rest (insert scope p.node)).trans ?_
    rw [mem_insert, or_comm (a := var = p.node), or_assoc]
    exact or_congr_right mem_cons.symm

lemma mem_entry {globals : Scope} {params : List Name} {var : String} :
    var ∈ (checkParams globals (insert globals "input") params).1 ↔
      var ∈ globals ∨ var = "input" ∨ var ∈ plainNames params := by
  rw [mem_checkParams, mem_insert, or_comm (a := var = "input"), or_assoc]

lemma mem_checkBranches : ∀ {body : List Stmt}, Harmless ((body.map (checkBranch defs scope c)).flatMap (·.1)) →
      var ∈ assignedBy body → var ∈ (body.map (checkBranch defs scope c)).flatMap (·.2)
  | [], _, h => h
  | s :: rest, h, hvar => by
    rw [map_cons, flatMap_cons, harmless_append] at h
    rw [map_cons, flatMap_cons, mem_append]
    rcases mem_union.1 hvar with hvar | hvar
    · left
      have hs := h.1
      unfold checkBranch at hs ⊢
      split at hs
      · exact hvar
      · exact absurd rfl (harmless_singleton.1 hs)
    · exact .inr (mem_checkBranches h.2 hvar)

mutual

theorem mem_checkStmt : ∀ (s : Stmt) (c : Context) (w : Walk),
    Harmless (checkStmt defs c w s).problems → var ∈ w.scope ∨ var ∈ assigned s →
    var ∈ (checkStmt defs c w s).scope
  | .assign target _ _, c, w, _, hvar | .push _ target _, c, w, _, hvar => by
    rw [assigned, mem_singleton] at hvar
    exact mem_insert.2 hvar.symm
  | .run target invocation onEscalate _, c, w, _, hvar => mem_union.2 hvar
  | .parallel body _, c, w, h, hvar => by
    have hbranches := (harmless_append.1 h).2
    exact mem_union.2 (hvar.imp_right (mem_checkBranches hbranches))
  | .branch condition thenBody (first :: elseRest) _, c, w, h, hvar => by
    have hthen := (extends_checkBlock (first :: elseRest) c.nested _).harmless h
    refine mem_union.2 (hvar.imp_right fun hvar => ?_)
    obtain ⟨hleft, hright⟩ := mem_inter.1 hvar
    exact mem_inter.2 ⟨mem_checkBlock thenBody _ _ hthen (.inr hleft),
      mem_checkBlock (first :: elseRest) _ _ h (.inr hright)⟩
  | .select subject arms _, c, w, _, hvar => by
    have hscope : (checkArms defs c (w.report (checkExpr w.scope subject)) arms).scope = w.scope :=
      checkArms_scope arms c _
    exact hscope ▸ hvar.resolve_right not_mem_nil
  | .setPath .., _, _, _, hvar | .loop .., _, _, _, hvar | .forEach .., _, _, _, hvar
  | .failure .., _, _, _, hvar | .ret .., _, _, _, hvar | .continue _, _, _, _, hvar
  | .abort .., _, _, _, hvar | .log .., _, _, _, hvar | .guard _, _, _, _, hvar
  | .branch _ _ [] _, _, _, _, hvar => hvar.resolve_right not_mem_nil

theorem mem_checkBlock : ∀ (ss : List Stmt) (c : Context) (w : Walk),
    Harmless (checkBlock defs c w ss).problems → var ∈ w.scope ∨ var ∈ assignedBy ss →
    var ∈ (checkBlock defs c w ss).scope
  | [], c, w, _, hvar => hvar.resolve_right not_mem_nil
  | s :: ss, c, w, h, hvar => by
    refine mem_checkBlock ss c (checkStmt defs c w s) h ?_
    have hs := (extends_checkBlock ss c (checkStmt defs c w s)).harmless h
    rcases hvar with hvar | hvar
    · exact .inl (mem_checkStmt s c w hs (.inl hvar))
    · exact (mem_union.1 hvar).imp_left fun hvar => mem_checkStmt s c w hs (.inr hvar)

end

/-- Handlers of one event are approved one behind the other, and all that they add to the scope is
there at the end. -/
lemma approved_handlers {guarded : Bool} {added : List Stmt → Scope} :
    ∀ {bodies : List (List Stmt)} {is : List Instr} {scope' : Scope},
    (∀ body ∈ bodies, ∀ is, bareAll is = allInstrs body →
      ∃ after, Approved defs guarded scope is after ∧ added body ⊆ after) →
    bareAll is = bodies.flatMap allInstrs → scope ⊆ scope' →
    ∃ after, Approved defs guarded scope' is after ∧ scope' ⊆ after ∧ ∀ body ∈ bodies, added body ⊆ after
  | [], is, scope', _, his, _ => by
    rw [bareAll_eq_nil.1 his]
    exact ⟨scope', .nil, .refl _, nofun⟩
  | body :: bodies, is, scope', h, his, hsub => by
    obtain ⟨front, back, rfl, hfront, hback⟩ := bareAll_eq_append his
    obtain ⟨mid, hmid, hadded⟩ := h body mem_cons_self front hfront
    obtain ⟨mid', hmid', hmore, hscope⟩ := hmid.mono hsub
    obtain ⟨after, hafter, hkept, hothers⟩ := approved_handlers
      (fun b hb => h b (.tail _ hb)) hback (List.Subset.trans hsub hscope)
    refine ⟨after, hmid'.append hafter, List.Subset.trans hscope hkept, forall_mem_cons.2 ⟨?_, hothers⟩⟩
    exact List.Subset.trans hadded (List.Subset.trans hmore hkept)

end Analysis

/-! ### Units of clean programs are linked -/

namespace CompiledUnit

open Analysis (Harmless harmless_append harmless_flatMap contains_of_resolve)

variable {u : CompiledUnit} {f : Decl → Option (String × α)} {p : PromptSpec}

lemma entry_of_contains (ht : t.Holds ((decls programs).filterMap f))
    (hf : ∀ d name, d.key? = some (kind, name) → ∃ a, f d = some (name, a))
    (h : (listed programs).contains kind name = true) : ∃ a, t.get? name = some a := by
  obtain ⟨d, hd, hkey⟩ := decl_of_contains h
  obtain ⟨a, ha⟩ := hf d name hkey
  exact ⟨a, ht.get?.2 (mem_filterMap.2 ⟨d, hd, ha⟩)⟩

lemma decl_of_entry (ht : t.Holds (ds.filterMap f)) (h : t.get? name = some a) :
    ∃ d ∈ ds, f d = some (name, a) := mem_filterMap.1 (ht.get?.1 h)

lemma decl_of_flow (h : u.Lowers ds) {f : FlowUnit} (hf : u.flows.get? name = some f) :
    ∃ d : FlowDef, .flow d ∈ ds ∧ f.bare = d.flow := by
  have hbare := Table.get?_map FlowUnit.bare name u.flows
  rw [hf] at hbare
  obtain ⟨d, hd, heq⟩ := decl_of_entry h.flows hbare
  cases d with
  | flow d => exact ⟨d, hd, (congrArg Prod.snd (Option.some.inj heq)).symm⟩
  | _ => cases heq

lemma decl_of_prompt (h : u.Lowers ds) (hp : u.prompts.get? name = some p) :
    ∃ d : PromptDef, .prompt d ∈ ds ∧ p = promptSpec d := by
  obtain ⟨d, hd, heq⟩ := decl_of_entry h.prompts hp
  cases d with
  | prompt d => exact ⟨d, hd, (congrArg Prod.snd (Option.some.inj heq)).symm⟩
  | _ => cases heq

lemma decl_of_agent (h : u.Lowers ds) {a : AgentSpec} (ha : u.agents.get? name = some a) :
    ∃ d : AgentDef, .agent d ∈ ds ∧ a = agentSpec d.effectiveName d := by
  obtain ⟨d, hd, heq⟩ := decl_of_entry h.agents ha
  cases d with
  | agent d => exact ⟨d, hd, (congrArg Prod.snd (Option.some.inj heq)).symm⟩
  | _ => cases heq

lemma mem_handlers {body : List Stmt} : body ∈ ds.filterMap (Decl.handler? event) ↔
      ∃ d : HandlerDef, .handler d ∈ ds ∧ d.event.node = event ∧ d.body = body := by
  rw [mem_filterMap]
  constructor
  · rintro ⟨d, hd, heq⟩
    cases d with
    | handler d =>
      simp only [Decl.handler?] at heq
      split at heq
      · exact ⟨d, hd, ‹_›, Option.some.inj heq⟩
      · cases heq
    | _ => cases heq
  · rintro ⟨d, hd, hevent, rfl⟩
    exact ⟨.handler d, hd, by rw [Decl.handler?, if_pos hevent]⟩

lemma decls_of_handler (h : u.Lowers ds) (hblock : u.handler? event = some block) :
    bareAll block = (ds.filterMap (Decl.handler? event)).flatMap allInstrs := by
  have hinstrs := h.handlers event
  rw [hblock, Decl.handlerInstrs] at hinstrs
  split at hinstrs
  · cases hinstrs
  · exact Option.some.inj hinstrs

lemma Lowers.exists_handler (h : u.Lowers ds) (hsome : ds.filterMap (Decl.handler? event) ≠ []) :
    ∃ block, u.handler? event = some block := by
  have hinstrs := h.handlers event
  rw [Decl.handlerInstrs] at hinstrs
  split at hinstrs
  · next hnone => exact absurd hnone hsome
  · obtain ⟨block, hblock, -⟩ := Option.map_eq_some_iff.1 hinstrs
    exact ⟨block, hblock⟩

lemma checked_of_clean (hclean : Analysis.Clean programs) {d : Decl} (hd : d ∈ decls programs) :
    Harmless (checkDecl (listed programs) (globals programs) d) := by
  obtain ⟨p, hp, hd⟩ := mem_flatMap.1 hd
  exact hclean.checkDecl hp hd

lemma Lowers.instruction (h : u.Lowers (decls programs)) (hclean : Analysis.Clean programs)
    {a : AgentSpec} (ha : u.agents.get? name = some a) :
    (listed programs).contains .prompt a.instruction = true := by
  obtain ⟨d, hd, rfl⟩ := decl_of_agent h ha
  have hchecked := checked_of_clean hclean hd
  simp only [checkDecl, checkAgent, harmless_append] at hchecked
  have hinstruction := hchecked.1.1.1.1.1
  cases heq : d.instruction with
  | none => simp [heq, Cause.code, Code.severity] at hinstruction
  | some prompt =>
    rw [heq] at hinstruction
    simpa [agentSpec, heq] using contains_of_resolve hinstruction

lemma Lowers.flowBody (h : u.Lowers (decls programs)) (hclean : Analysis.Clean programs) {f : FlowUnit}
    (hf : u.flows.get? name = some f) :
    (∃ scope after, Approved (listed programs) false scope f.body after ∧
      ∀ var ∈ scope, var ∈ globals programs ∨ var = "input" ∨ var ∈ f.params) ∧
    ∀ block ∈ f.onFailure, ∃ scope after, Approved (listed programs) false scope block after := by
  obtain ⟨d, hd, hbare⟩ := decl_of_flow h hf
  have hchecked : Harmless (checkFlow (listed programs) (globals programs) d) := checked_of_clean hclean hd
  obtain ⟨-, -, hsteps, hfailures⟩ := approved_body
    (faithful_listed programs) rfl d.body _ (harmless_append.1 hchecked).2
  have hparams : f.params = plainNames d.params := congrArg FlowUnit.params hbare
  have hbody : bareAll f.body = allInstrs (steps d.body) :=
    congrArg FlowUnit.body hbare
  have hfailure : f.onFailure.map bareAll = (failures d.body).head?.map allInstrs :=
    congrArg FlowUnit.onFailure hbare
  refine ⟨⟨_, _, hsteps f.body hbody, fun var hvar => ?_⟩, fun block hblock => ?_⟩
  · rw [hparams]
    exact mem_entry.1 hvar
  · rw [Option.mem_def.1 hblock] at hfailure
    obtain ⟨body, hhead, hinstrs⟩ := Option.map_eq_some_iff.1 hfailure.symm
    exact hfailures body (mem_of_mem_head? hhead) block hinstrs.symm

lemma Lowers.handlerScope (h : u.Lowers (decls programs)) (hclean : Analysis.Clean programs)
    (hblock : u.handler? event = some block) :
    ∃ after, Approved (listed programs) (event != .start)
        (if event = .start then ["input"] else insert (globals programs) "input") block after ∧
      ∀ d : HandlerDef, .handler d ∈ decls programs → d.event.node = event → assignedBy d.body ⊆ after := by
  have hbody : ∀ body ∈ (decls programs).filterMap (Decl.handler? event), ∀ is,
      bareAll is = allInstrs body → ∃ after, Approved (listed programs)
        (event != .start) (if event = .start then ["input"] else
          insert (globals programs) "input") is after ∧
        assignedBy body ⊆ after := by
    intro body hbody is his
    obtain ⟨d, hd, rfl, rfl⟩ := mem_handlers.1 hbody
    have hchecked := checked_of_clean hclean hd
    have happroved := approved_block (faithful_listed programs) d.body _ _ rfl hchecked his
    have hguarded : Analysis.Context.guarded { handler := some d.event.node } =
        (d.event.node != .start) := by cases d.event.node <;> rfl
    rw [hguarded] at happroved
    exact ⟨_, happroved, fun var hvar => mem_checkBlock d.body _ _ hchecked (.inr hvar)⟩
  obtain ⟨after, hafter, -, hassigned⟩ :=
    approved_handlers hbody (decls_of_handler h hblock) (.refl _)
  exact ⟨after, hafter, fun d hd hevent => hassigned d.body (mem_handlers.2 ⟨d, hd, hevent, rfl⟩)⟩

lemma Lowers.handlerBlock (h : u.Lowers (decls programs)) (hclean : Analysis.Clean programs)
    (hblock : u.handler? event = some block) : ∃ scope after,
      Approved (listed programs) (event != .start) scope block after ∧
      (event ≠ .start → ∀ var ∈ scope, var ∈ globals programs ∨ var = "input") := by
  obtain ⟨after, hafter, -⟩ := h.handlerScope hclean hblock
  refine ⟨_, after, hafter, fun hevent var hvar => ?_⟩
  rw [if_neg hevent] at hvar
  exact (mem_insert.1 hvar).symm

lemma Lowers.promptParts (h : u.Lowers (decls programs)) (hclean : Analysis.Clean programs)
    (hp : u.prompts.get? name = some p) :
    (∀ model ∈ p.model, (listed programs).contains .model model = true) ∧
      ∀ schema ∈ p.expecting, (listed programs).contains .schema schema = true := by
  obtain ⟨d, hd, rfl⟩ := decl_of_prompt h hp
  have hchecked := checked_of_clean hclean hd
  simp only [checkDecl, harmless_append, harmless_flatMap] at hchecked
  constructor
  · intro model hmodel
    obtain ⟨m, hm, rfl⟩ := Option.map_eq_some_iff.1 hmodel
    exact contains_of_resolve (hchecked.1 m (Option.mem_toList.2 hm))
  · intro schema hschema
    obtain ⟨s, hs, rfl⟩ := Option.map_eq_some_iff.1 hschema
    exact contains_of_resolve (hchecked.2 s (Option.mem_toList.2 hs))

lemma Lowers.flow_of_entry (h : u.Lowers ds) {bare : FlowUnit} (hd : (name, bare) ∈ ds.filterMap Decl.flow?) :
    ∃ f, u.flows.get? name = some f ∧ f.bare = bare := by
  have hentry := h.flows.get?.2 hd
  rw [Table.get?_map] at hentry
  exact Option.map_eq_some_iff.1 hentry

lemma Lowers.flow_of_decl (h : u.Lowers ds) (hd : .flow d ∈ ds) :
    ∃ f, u.flows.get? d.name.node = some f ∧ f.params = plainNames d.params := by
  obtain ⟨f, hf, hbare⟩ := h.flow_of_entry (mem_filterMap.2 ⟨.flow d, hd, rfl⟩)
  exact ⟨f, hf, congrArg FlowUnit.params hbare⟩

lemma Lowers.takesArgs (h : u.Lowers (decls programs)) (htakes : (listed programs).TakesArgs name given) :
    u.Takes name given := by
  obtain ⟨expected, harity, hgiven⟩ := htakes
  obtain ⟨d, hd, rfl, rfl⟩ := flow_of_arity harity
  obtain ⟨f, hf, hparams⟩ := h.flow_of_decl hd
  refine ⟨f, hf, hgiven.imp (fun hlength => ?_) fun hlength => ?_⟩
  · rw [hparams, plainNames, length_map, hlength]
  · rw [hparams, length_eq_zero_iff.1 hlength]
    rfl

lemma Lowers.guardrailName (h : u.Lowers ds) (hg : u.guardrails.get? name = some g) : g.name = name := by
  obtain ⟨d, hd, heq⟩ := decl_of_entry h.guardrails hg
  cases d with
  | guardrail d =>
    cases heq
    rfl
  | _ => cases heq

lemma Lowers.linked (h : u.Lowers (decls programs)) (hclean : Analysis.Clean programs) :
    u.Linked (listed programs) (globals programs) := by
  have hmodel : ∀ {name}, (listed programs).contains .model name = true → ∃ m, u.models.get? name = some m :=
    entry_of_contains h.models (by rintro (_ | _) name ⟨⟩; exact ⟨_, rfl⟩)
  have hschema : ∀ {name}, (listed programs).contains .schema name = true → ∃ s, u.schemas.get? name = some s :=
    entry_of_contains h.schemas (by rintro (_ | _) name ⟨⟩; exact ⟨_, rfl⟩)
  have hprompt : ∀ {name}, (listed programs).contains .prompt name = true → ∃ p, u.prompts.get? name = some p :=
    entry_of_contains h.prompts (by rintro (_ | _) name ⟨⟩; exact ⟨_, rfl⟩)
  exact
    { model := hmodel
      prompt := hprompt
      promptModel := fun hp m hm => hmodel ((h.promptParts hclean hp).1 m hm)
      promptSchema := fun hp s hs => hschema ((h.promptParts hclean hp).2 s hs)
      agent := entry_of_contains h.agents (by rintro (_ | _) name ⟨⟩; exact ⟨_, rfl⟩)
      instruction := fun ha => hprompt (h.instruction hclean ha)
      guardrail := fun hname =>
        have ⟨g, hg⟩ := entry_of_contains h.guardrails (by rintro (_ | _) name ⟨⟩; exact ⟨_, rfl⟩) hname
        have hmem := (Table.get?_eq_some h.guardrails.1).1 hg
        ⟨g, mem_map.2 ⟨_, hmem, rfl⟩, h.guardrailName hg⟩
      flow := h.takesArgs
      body := fun hf => (h.flowBody hclean hf).1
      failure := fun hf => (h.flowBody hclean hf).2
      handler := h.handlerBlock hclean }

end CompiledUnit

end Workflow
