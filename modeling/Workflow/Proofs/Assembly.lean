import Mathlib.Data.List.Perm.Lattice
import Workflow.Proofs.Approved
import Workflow.Proofs.Sorted

/-!
Assembly of declarations. Approved blocks pass the checks of assembly, and each declaration with a free name
adds its entry to its table. `CompiledUnit.Lowers` tells what a unit made of declarations holds: a table has one
entry for each declaration of its kind, and an event has the instructions of its handlers, one handler after the
other.
-/

namespace Workflow

open List Assembly Instr Decl Analysis

variable {defs : Definitions} {d : Decl} {ds : List Decl} {name : String} {is rest : List Instr}
  {globals : Scope} {guarded : Bool} {op : Op} {β : Type}

/-! ### Approved blocks stand where they may -/

namespace Assembly

lemma misplacement_of_approved (h : op.Approved defs guarded scope) (afterIf : Bool) :
    misplacement? false afterIf op = none ∧ isSelect op = false := by
  cases op <;> first | exact ⟨rfl, rfl⟩ | exact absurd h id

lemma checkBlock_cons {line : Nat} {body : List Instr} (hplace : misplacement? inMatch afterIf op = none)
    (hbody : checkBlock (isSelect op) false body = .ok ()) (hrest : checkBlock inMatch (isBranch op) rest = .ok ()) :
    checkBlock inMatch afterIf (.mk line op body :: rest) = .ok () := by
  rw [checkBlock, hplace]
  dsimp only
  rw [hbody]
  exact hrest

mutual

theorem checkBlock_of_approved : ∀ {scope after is}, Approved defs guarded scope is after → ∀ afterIf : Bool,
    checkBlock false afterIf is = .ok ()
  | _, _, _, .nil, _ => by rw [checkBlock]
  | _, _, _, .step approved next, afterIf => by
    obtain ⟨hplace, hselect⟩ := misplacement_of_approved approved afterIf
    exact checkBlock_cons hplace (by rw [hselect, checkBlock]) (checkBlock_of_approved next _)
  | _, _, _, .loop inside next, _ | _, _, _, .forEach _ inside next, _ | _, _, _, .branch _ inside next, _ =>
    checkBlock_cons rfl (checkBlock_of_approved inside false) (checkBlock_of_approved next _)
  | _, _, _, .branchElse _ inside insideElse next, _ =>
    checkBlock_cons rfl (checkBlock_of_approved inside false)
      (checkBlock_cons rfl (checkBlock_of_approved insideElse false) (checkBlock_of_approved next _))
  | _, _, _, .select _ inside next, _ =>
    checkBlock_cons rfl (checkArms_of_approved inside false) (checkBlock_of_approved next _)

theorem checkArms_of_approved : ∀ {scope is}, ApprovedArms defs guarded scope is → ∀ afterIf : Bool,
    checkBlock true afterIf is = .ok ()
  | _, _, .nil, _ => by rw [checkBlock]
  | _, _, .arm inside next, _ =>
    checkBlock_cons rfl (checkBlock_of_approved inside false) (checkArms_of_approved next _)

end

/-! ### Failure blocks -/

lemma op_runOp_ne_onFailure : Lower.runOp target onEscalate invocation ≠ .onFailure := by
  cases invocation <;> exact Op.noConfusion

lemma op_ne_onFailure {s : Stmt} (h : s.failureBody? = none) : ∀ i ∈ s.instrs, i.op ≠ .onFailure := by
  intro i hi
  cases s with
  | failure body span => cases h
  | branch condition thenBody elseBody span =>
    rw [Stmt.instrs] at hi
    split at hi <;> simp only [mem_cons, not_mem_nil, or_false] at hi
    · rw [hi]; exact Op.noConfusion
    · rcases hi with rfl | rfl <;> exact Op.noConfusion
  | ret value span =>
    cases value <;> (rw [mem_singleton.1 hi]; exact Op.noConfusion)
  | run target invocation onEscalate span =>
    rw [mem_singleton.1 hi]
    exact op_runOp_ne_onFailure
  | _ => rw [mem_singleton.1 hi]; exact Op.noConfusion

lemma splitFailure_cons {failure : Option (List Instr)} {i : Instr} (h : i.op ≠ .onFailure) :
    splitFailure.go failure (i :: rest) = (splitFailure.go failure rest).map fun p => (i :: p.1, p.2) := by
  rcases i with ⟨line, op, body⟩
  rw [splitFailure.go]
  · cases splitFailure.go failure rest <;> rfl
  · intro _ _ heq
    cases heq
    exact h rfl

lemma splitFailure_append {failure : Option (List Instr)} : ∀ {front}, (∀ i ∈ front, i.op ≠ .onFailure) →
    splitFailure.go failure (front ++ rest) = (splitFailure.go failure rest).map fun p => (front ++ p.1, p.2)
  | [], _ => by cases h : splitFailure.go failure rest <;> simp [Except.map, h]
  | i :: front, h => by
    rw [cons_append, splitFailure_cons (h i mem_cons_self), splitFailure_append fun j hj => h j (mem_cons_of_mem i hj)]
    cases splitFailure.go failure rest <;> rfl

/-- Splitting the instructions of a body takes out the block of its failure statement, of which
there may be one. -/
lemma splitFailure_instrs : ∀ (ss : List Stmt) {is} {failure : Option (List Instr)},
    bareAll is = Stmt.allInstrs ss → (failure.isSome → Stmt.failures ss = []) →
    (Stmt.failures ss).length ≤ 1 → ∃ body failure', splitFailure.go failure is = .ok (body, failure') ∧
      bareAll body = Stmt.allInstrs (Stmt.steps ss) ∧ failure'.map bareAll =
        ((Stmt.failures ss).head?.map Stmt.allInstrs <|> failure.map bareAll)
  | [], is, failure, his, _, _ => by
    rw [bareAll_eq_nil.1 his]
    exact ⟨[], failure, by rw [splitFailure.go], rfl, rfl⟩
  | s :: ss, is, failure, his, hnone, hcount => by
    obtain ⟨front, back, rfl, hfront, hback⟩ := bareAll_eq_append his
    cases hfailure : s.failureBody? with
    | none =>
      rw [Stmt.failures_cons_none hfailure] at hnone hcount ⊢
      rw [Stmt.steps_cons_none hfailure]
      obtain ⟨body, failure', hgo, hbody, hfailure'⟩ := splitFailure_instrs ss hback hnone hcount
      refine ⟨front ++ body, failure', ?_, ?_, hfailure'⟩
      · rw [splitFailure_append fun i hi => ?_, hgo]
        · rfl
        · rw [← bare_op]
          exact op_ne_onFailure hfailure _ (hfront ▸ bare_mem hi)
      · rw [bareAll_append, hfront, hbody]
        rfl
    | some block =>
      obtain ⟨span, rfl⟩ := Stmt.eq_failure hfailure
      rw [Stmt.failures_cons_some hfailure] at hnone hcount ⊢
      rw [Stmt.steps_cons_some hfailure]
      obtain ⟨line, inner, rfl, hinner⟩ := bareAll_eq_singleton hfront
      have hrest : Stmt.failures ss = [] := eq_nil_of_length_eq_zero (by simpa using hcount)
      cases failure with
      | some known => exact absurd (hnone rfl) (cons_ne_nil _ _)
      | none =>
        obtain ⟨body, failure', hgo, hbody, hfailure'⟩ :=
          @splitFailure_instrs ss back (some inner) hback (fun _ => hrest) (by simp [hrest])
        refine ⟨body, failure', ?_, hbody, ?_⟩
        · rw [cons_append, nil_append, splitFailure.go]
          exact hgo
        · rw [hfailure', hrest]
          simp [hinner]

end Assembly

def FlowUnit.bare (f : FlowUnit) : FlowUnit :=
  { f with line := 0, body := bareAll f.body, onFailure := f.onFailure.map bareAll }

/-- The flow of a definition, all on line 0: its failure block stands apart from the rest. -/
def FlowDef.flow (d : FlowDef) : FlowUnit where
  name := d.name.node
  params := plainNames d.params
  line := 0
  body := Stmt.allInstrs (Stmt.steps d.body)
  onFailure := (Stmt.failures d.body).head?.map Stmt.allInstrs

namespace Assembly

lemma flowUnit_of_checkFlow (hdefs : defs.Faithful) {d : FlowDef}
    (h : Analysis.Harmless (checkFlow defs globals d)) (his : bareAll is = Stmt.allInstrs d.body)
    (line : Nat) : ∃ f, flowUnit d.name.node (plainNames d.params) line is = .ok f ∧ f.bare = d.flow := by
  obtain ⟨-, hcount, hsteps, hfailures⟩ :=
    approved_body hdefs rfl d.body _ (harmless_append.1 h).2
  obtain ⟨body, failure, hsplit, hbody, hfailure⟩ :=
    @splitFailure_instrs d.body is none his (by simp) hcount
  have hcheck := checkBlock_of_approved (hsteps body hbody) false
  have hcheckFailure : ∀ block ∈ failure, checkBlock false false block = .ok () := by
    rintro block rfl
    cases hblocks : Stmt.failures d.body with
    | nil => simp [hblocks] at hfailure
    | cons first rest =>
      have hfirst : bareAll block = Stmt.allInstrs first := by simpa [hblocks] using hfailure
      obtain ⟨scope, after, happroved⟩ := hfailures first (by simp [hblocks]) block hfirst
      exact checkBlock_of_approved happroved false
  refine ⟨⟨d.name.node, plainNames d.params, line, body, failure⟩, ?_, ?_⟩
  · rw [flowUnit, splitFailure, hsplit]
    cases failure with
    | none => simp [bind, Except.bind, pure, Except.pure, hcheck]
    | some block =>
      simp [bind, Except.bind, pure, Except.pure, hcheck, hcheckFailure block rfl]
  · simp [FlowUnit.bare, FlowDef.flow, hbody, hfailure]

end Assembly

/-! ### Tables -/

namespace Table

variable {α : Type} {a : α} {t : Table α} {f : Decl → Option (String × α)}

/-- A table has these entries, in whatever order, and no two under one name. -/
def Holds (t : Table α) (entries : List (String × α)) : Prop := t.names.Nodup ∧ t.Perm entries

lemma get?_eq_none : ∀ {t : Table α}, t.get? name = none ↔ name ∉ t.names
  | [] => by simp [names]
  | (k, v) :: rest => by
    by_cases h : k = name
    · simp [get?, names, h]
    · simp [get?, names, h, get?_eq_none (t := rest), Ne.symm h]

lemma get?_map (g : α → β) (name : String) : ∀ t : Table α,
    get? (t.map fun e => (e.1, g e.2)) name = (t.get? name).map g
  | [] => rfl
  | (k, v) :: rest => by
    by_cases h : k = name
    · simp [get?, h]
    · simpa [get?, h] using get?_map g name rest

lemma insert_map (g : α → β) (name : String) (a : α) : ∀ t : Table α,
    insert (t.map fun e => (e.1, g e.2)) name (g a) = (t.insert name a).map fun e => (e.1, g e.2)
  | [] => rfl
  | (k, v) :: rest => by
    have ih := insert_map g name a rest
    simp only [map_cons, insert]
    split
    · rfl
    · split
      · rfl
      · rw [ih]; rfl

lemma enter_map (g : α → β) {kind : String} {line : Nat} {u : Table β}
    (h : enter (t.map fun e => (e.1, g e.2)) name (g a) kind line = .ok u) :
    ∃ t', enter t name a kind line = .ok t' ∧ t'.map (fun e => (e.1, g e.2)) = u := by
  have hcontains : contains (t.map fun e => (e.1, g e.2)) name = t.contains name := by
    simp [contains, get?_map]
  unfold enter at h ⊢
  rw [hcontains] at h
  split at h
  · cases h
  · next hfree =>
    cases h
    exact ⟨_, if_neg hfree, (insert_map g name a t).symm⟩

lemma Holds.enter {entries : List (String × α)} (h : t.Holds entries) (hname : name ∉ entries.map (·.1))
    (a : α) (kind : String) (line : Nat) :
    ∃ t', enter t name a kind line = .ok t' ∧ t'.Holds (entries ++ [(name, a)]) := by
  have hfresh : name ∉ t.names := fun hmem => hname ((h.2.map (·.1)).subset hmem)
  refine ⟨t.insert name a, ?_, ?_, ?_⟩
  · simp [Assembly.enter, contains, get?_eq_none.2 hfresh]
  · rw [names, (((insert_perm hfresh).map (·.1)).nodup_iff)]
    exact nodup_cons.2 ⟨hfresh, h.1⟩
  · exact (insert_perm hfresh).trans ((h.2.cons _).trans (perm_append_singleton _ _).symm)

lemma Holds.skip (h : t.Holds (ds.filterMap f)) (hd : f d = none) : t.Holds ((ds ++ [d]).filterMap f) := by
  rwa [filterMap_append, filterMap_cons_none hd, filterMap_nil, append_nil]

lemma Holds.add {entry : String × α} (h : t.Holds (ds.filterMap f ++ [entry])) (hd : f d = some entry) :
    t.Holds ((ds ++ [d]).filterMap f) := by
  rwa [filterMap_append, filterMap_cons_some hd, filterMap_nil]

end Table

/-! ### Units by structure -/

namespace Decl

def model? : Decl → Option (String × ModelSpec)
  | .model d => some (d.name.node, Lower.modelSpec d)
  | _ => none

def schema? : Decl → Option (String × SchemaSpec)
  | .schema d => some (d.name.node, Lower.schemaSpec d)
  | _ => none

def tool? : Decl → Option (String × ToolSpec)
  | .tool d => some (d.name.node, ⟨d.name.node, d.kind, d.target.node⟩)
  | _ => none

def retry? : Decl → Option (String × RetryPolicy)
  | .retry d => some (d.name.node, ⟨d.name.node, d.attempts.node, d.backoff⟩)
  | _ => none

def timeout? : Decl → Option (String × TimeoutPolicy)
  | .timeout d => some (d.name.node, ⟨d.name.node, d.seconds.node⟩)
  | _ => none

def guardrail? : Decl → Option (String × GuardrailSpec)
  | .guardrail d => some (d.name.node, ⟨d.name.node, d.pattern.node⟩)
  | _ => none

def prompt? : Decl → Option (String × PromptSpec)
  | .prompt d => some (d.name.node, Lower.promptSpec d)
  | _ => none

def agent? : Decl → Option (String × AgentSpec)
  | .agent d => some (d.effectiveName, Lower.agentSpec d.effectiveName d)
  | _ => none

def flow? : Decl → Option (String × FlowUnit)
  | .flow d => some (d.name.node, d.flow)
  | _ => none

def handler? (event : HandlerEvent) : Decl → Option (List Stmt)
  | .handler d => if d.event.node = event then some d.body else none
  | _ => none

/-- The instructions of all handlers of an event among declarations, if there is one. -/
def handlerInstrs (event : HandlerEvent) (ds : List Decl) : Option (List Instr) :=
  match ds.filterMap (handler? event) with
  | [] => none
  | bodies => some (bodies.flatMap Stmt.allInstrs)

end Decl

/-- A unit that is made of declarations and nothing else. Flows and handlers are told without the
numbers of their lines. -/
structure CompiledUnit.Lowers (u : CompiledUnit) (ds : List Decl) : Prop where
  models : u.models.Holds (ds.filterMap model?)
  schemas : u.schemas.Holds (ds.filterMap schema?)
  tools : u.tools.Holds (ds.filterMap tool?)
  retries : u.retries.Holds (ds.filterMap retry?)
  timeouts : u.timeouts.Holds (ds.filterMap timeout?)
  guardrails : u.guardrails.Holds (ds.filterMap guardrail?)
  prompts : u.prompts.Holds (ds.filterMap prompt?)
  agents : u.agents.Holds (ds.filterMap agent?)
  flows : Table.Holds (u.flows.map fun e => (e.1, e.2.bare)) (ds.filterMap flow?)
  events : (u.handlers.map (·.1)).Nodup
  handlers : ∀ event, (u.handler? event).map bareAll = handlerInstrs event ds

namespace Assembly

lemma find?_addHandler (added event : HandlerEvent) (body : List Instr) : ∀ hs : List (HandlerEvent × List Instr),
    ((addHandler hs added body).find? (·.1 = event)).map (·.2) =
      if added = event then some (((hs.find? (·.1 = event)).map (·.2)).getD [] ++ body)
      else (hs.find? (·.1 = event)).map (·.2)
  | [] => by by_cases h : added = event <;> simp [addHandler, h]
  | (e, known) :: rest => by
    have ih := find?_addHandler added event body rest
    by_cases he : e = added
    · by_cases h : added = event <;> simp [addHandler, he, h]
    · by_cases h : e = event
      · subst h
        simp [addHandler, he, Ne.symm he]
      · simpa [addHandler, he, h] using ih

lemma keys_addHandler (added : HandlerEvent) (body : List Instr) :
    ∀ hs : List (HandlerEvent × List Instr), (addHandler hs added body).map (·.1) =
      if added ∈ hs.map (·.1) then hs.map (·.1) else hs.map (·.1) ++ [added]
  | [] => rfl
  | (e, known) :: rest => by
    have ih := keys_addHandler added body rest
    by_cases he : e = added
    · simp [addHandler, he]
    · simp only [addHandler, he, if_false, map_cons, ih, mem_cons, Ne.symm he, false_or]
      split <;> rfl

end Assembly

namespace CompiledUnit

variable {u : CompiledUnit}

lemma handlerInstrs_skip {event : HandlerEvent} (h : d.handler? event = none) :
    handlerInstrs event (ds ++ [d]) = handlerInstrs event ds := by
  simp [handlerInstrs, h]

lemma handlerInstrs_add {body : List Stmt} (h : d.handler? event = some body) : handlerInstrs event (ds ++ [d]) =
      some ((Decl.handlerInstrs event ds).getD [] ++ Stmt.allInstrs body) := by
  simp only [handlerInstrs, filterMap_append, filterMap_cons_some h, filterMap_nil]
  cases ds.filterMap (Decl.handler? event) <;> simp

lemma Lowers.add_handler (hu : u.Lowers ds) {d : HandlerDef} {body : List Instr}
    (hbody : bareAll body = Stmt.allInstrs d.body) :
    ({ u with handlers := addHandler u.handlers d.event.node body } : CompiledUnit).Lowers (ds ++ [.handler d]) := by
  obtain ⟨m, s, t, r, l, g, p, a, f, e, h⟩ := hu
  refine ⟨m.skip rfl, s.skip rfl, t.skip rfl, r.skip rfl, l.skip rfl, g.skip rfl, p.skip rfl,
    a.skip rfl, f.skip rfl, ?_, fun event => ?_⟩
  · rw [keys_addHandler]
    split
    · exact e
    · exact nodup_append_comm.1 (nodup_cons.2 ⟨‹_›, e⟩)
  · rw [handler?, find?_addHandler]
    by_cases hevent : d.event.node = event
    · have hown : (handler d).handler? event = some d.body := if_pos hevent
      rw [if_pos hevent, handlerInstrs_add hown, ← h event, Option.map_some, bareAll_append, hbody, ← handler?]
      cases u.handler? event <;> rfl
    · rw [if_neg hevent, handlerInstrs_skip (by simp [Decl.handler?, hevent])]
      exact h event

end CompiledUnit

def Decl.key? (d : Decl) : Option (DefKind × String) := d.named?.map fun (kind, name, _) => (kind, name)

lemma Table.Holds.enter_decl {α : Type} {t : Table α} {f : Decl → Option (String × α)}
    (ht : t.Holds (ds.filterMap f)) {kind : DefKind}
    (hf : ∀ d entry, f d = some entry → d.key? = some (kind, entry.1))
    (hfresh : ∀ key ∈ d.key?, key ∉ ds.filterMap key?) {entry : String × α} (hd : f d = some entry)
    (label : String) (line : Nat) :
    ∃ t', Assembly.enter t entry.1 entry.2 label line = .ok t' ∧ t'.Holds ((ds ++ [d]).filterMap f) := by
  have hname : entry.1 ∉ (ds.filterMap f).map (·.1) := by
    intro hname
    obtain ⟨other, hother, heq⟩ := mem_map.1 hname
    obtain ⟨e, he, hfe⟩ := mem_filterMap.1 hother
    exact hfresh _ (hf d entry hd) (mem_filterMap.2 ⟨e, he, heq ▸ hf e other hfe⟩)
  obtain ⟨t', ht', hholds⟩ := ht.enter hname entry.2 label line
  exact ⟨t', ht', hholds.add hd⟩

namespace CompiledUnit

variable {u : CompiledUnit}

lemma foldlM_register_one (i : Instr) : [i].foldlM register u = register u i := by
  rw [foldlM_cons]
  cases register u i <;> rfl

lemma register_entry {α : Type} {t : Table α} {f : Decl → Option (String × α)} (ht : t.Holds (ds.filterMap f))
    {kind : DefKind} (hf : ∀ d entry, f d = some entry → d.key? = some (kind, entry.1))
    (hfresh : ∀ key ∈ d.key?, key ∉ ds.filterMap key?) {entry : String × α} (hd : f d = some entry)
    {block : List Instr} (his : bareAll is = [.mk 0 op block]) {label : String}
    (put : Table α → CompiledUnit)
    (hput : ∀ line body, register u (.mk line op body) = (enter t entry.1 entry.2 label line).map put) :
    ∃ table, is.foldlM register u = .ok (put table) ∧ table.Holds ((ds ++ [d]).filterMap f) := by
  obtain ⟨line, body, rfl, -⟩ := bareAll_eq_singleton his
  obtain ⟨table, htable, hholds⟩ := ht.enter_decl hf hfresh hd label line
  refine ⟨table, ?_, hholds⟩
  rw [foldlM_register_one, hput, htable]
  rfl

lemma Lowers.register (hdefs : defs.Faithful) (hu : u.Lowers ds)
    (hname : ∀ a, d = .agent a → name = a.effectiveName) (hfresh : ∀ key ∈ d.key?, key ∉ ds.filterMap key?)
    (hchecked : Analysis.Harmless (checkDecl defs globals d)) (his : bareAll is = d.instrs name) :
    ∃ u', is.foldlM Assembly.register u = .ok u' ∧ u'.Lowers (ds ++ [d]) := by
  obtain ⟨m, s, t, r, l, g, p, a, f, e, h⟩ := hu
  have hother : ∀ event, d.handler? event = none → (u.handler? event).map bareAll = handlerInstrs event (ds ++ [d]) :=
    fun event hd => (h event).trans (handlerInstrs_skip hd).symm
  cases d
  case handler d =>
    obtain ⟨line, body, rfl, hbody⟩ := bareAll_eq_singleton his
    have happroved := approved_block hdefs d.body _ _ rfl hchecked hbody
    refine ⟨_, ?_, Lowers.add_handler ⟨m, s, t, r, l, g, p, a, f, e, h⟩ hbody⟩
    rw [foldlM_register_one, Assembly.register, Assembly.checkBlock_of_approved happroved false]
    rfl
  case' importDecl d =>
    rw [bareAll_eq_nil.1 his]
    refine ⟨u, rfl, ?_⟩
  case' model d =>
    obtain ⟨table, htable, hholds⟩ := register_entry m (by rintro (_ | _) entry ⟨⟩; rfl) hfresh rfl his
      (fun table => { u with models := table }) fun _ _ => rfl
    refine ⟨_, htable, ?_⟩
  case' schema d =>
    obtain ⟨table, htable, hholds⟩ := register_entry s (by rintro (_ | _) entry ⟨⟩; rfl) hfresh rfl his
      (fun table => { u with schemas := table }) fun _ _ => rfl
    refine ⟨_, htable, ?_⟩
  case' tool d =>
    obtain ⟨table, htable, hholds⟩ := register_entry t (by rintro (_ | _) entry ⟨⟩; rfl) hfresh rfl his
      (fun table => { u with tools := table }) fun _ _ => rfl
    refine ⟨_, htable, ?_⟩
  case' retry d =>
    obtain ⟨table, htable, hholds⟩ := register_entry r (by rintro (_ | _) entry ⟨⟩; rfl) hfresh rfl his
      (fun table => { u with retries := table }) fun _ _ => rfl
    refine ⟨_, htable, ?_⟩
  case' timeout d =>
    obtain ⟨table, htable, hholds⟩ := register_entry l (by rintro (_ | _) entry ⟨⟩; rfl) hfresh rfl his
      (fun table => { u with timeouts := table }) fun _ _ => rfl
    refine ⟨_, htable, ?_⟩
  case' guardrail d =>
    obtain ⟨table, htable, hholds⟩ := register_entry g (by rintro (_ | _) entry ⟨⟩; rfl) hfresh rfl his
      (fun table => { u with guardrails := table }) fun _ _ => rfl
    refine ⟨_, htable, ?_⟩
  case' prompt d =>
    obtain ⟨table, htable, hholds⟩ := register_entry p (by rintro (_ | _) entry ⟨⟩; rfl) hfresh rfl his
      (fun table => { u with prompts := table }) fun _ _ => rfl
    refine ⟨_, htable, ?_⟩
  case' agent d =>
    obtain rfl := hname d rfl
    obtain ⟨table, htable, hholds⟩ := register_entry a (by rintro (_ | _) entry ⟨⟩; rfl) hfresh rfl his
      (fun table => { u with agents := table }) fun _ _ => rfl
    refine ⟨_, htable, ?_⟩
  case' flow d =>
    obtain ⟨line, body, rfl, hbody⟩ := bareAll_eq_singleton his
    obtain ⟨flow, hflow, hbare⟩ := Assembly.flowUnit_of_checkFlow hdefs hchecked hbody line
    obtain ⟨bareTable, hbareTable, hholds⟩ := f.enter_decl (by rintro (_ | _) entry ⟨⟩; rfl) hfresh rfl "flow" line
    obtain ⟨table, htable, rfl⟩ := Table.enter_map FlowUnit.bare (hbare ▸ hbareTable)
    have hregister : [.mk line (.flow d.name.node (plainNames d.params)) body].foldlM Assembly.register u =
        .ok { u with flows := table } := by
      rw [foldlM_register_one, Assembly.register, hflow]
      exact congrArg (· >>= fun table => pure { u with flows := table }) htable
    refine ⟨_, hregister, ?_⟩
  -- all that the declaration does not define is as before
  all_goals
    constructor
    case events => exact e
    case handlers => exact fun event => hother event rfl
    all_goals first | exact hholds | exact Table.Holds.skip ‹_› rfl

lemma Lowers.register_all (hdefs : defs.Faithful) : ∀ (rest : List (String × Decl)) {u : CompiledUnit} {ds is},
    u.Lowers ds → (∀ e ∈ rest, ∀ a, e.2 = .agent a → e.1 = a.effectiveName) →
    (∀ e ∈ rest, Analysis.Harmless (checkDecl defs globals e.2)) → ((ds ++ rest.map (·.2)).filterMap key?).Nodup →
    bareAll is = rest.flatMap (fun e => e.2.instrs e.1) →
    ∃ u', is.foldlM Assembly.register u = .ok u' ∧ u'.Lowers (ds ++ rest.map (·.2))
  | [], u, ds, is, hu, _, _, _, his => by
    rw [bareAll_eq_nil.1 his]
    exact ⟨u, rfl, by rwa [map_nil, append_nil]⟩
  | (name, d) :: rest, u, ds, is, hu, hnames, hchecked, hkeys, his => by
    obtain ⟨front, back, rfl, hfront, hback⟩ := bareAll_eq_append his
    have hfresh : ∀ key ∈ d.key?, key ∉ ds.filterMap key? := by
      intro key hkey hmem
      rw [filterMap_append] at hkeys
      exact (nodup_append.1 hkeys).2.2 key hmem key (mem_filterMap.2 ⟨d, .head _, hkey⟩) rfl
    obtain ⟨v, hv, hlowers⟩ := hu.register hdefs (hnames _ mem_cons_self) hfresh (hchecked _ mem_cons_self) hfront
    have happend : ds ++ ((name, d) :: rest).map (·.2) = (ds ++ [d]) ++ rest.map (·.2) := by simp
    rw [happend] at hkeys ⊢
    obtain ⟨w, hw, hresult⟩ := hlowers.register_all hdefs rest (fun e he => hnames e (.tail _ he))
      (fun e he => hchecked e (.tail _ he)) hkeys hback
    refine ⟨w, ?_, hresult⟩
    rw [foldlM_append, hv]
    exact hw

end CompiledUnit

end Workflow
