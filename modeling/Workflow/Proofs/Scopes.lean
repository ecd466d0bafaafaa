import Workflow.Proofs.Values
import Workflow.Proofs.Yields

/-!
Approved blocks at work. An approved block that starts in a frame which covers its scope ends in such a frame or
with a fault of a kind `E`: the scope keeps its values, and each statement adds those that it defines. The scope
is covered up to a kind `L` of faults, which may be less than `E`.
-/

namespace Workflow

open Scope Exec Triple

variable {f : Frame} {body : Exec Control} {scope after : Scope}

/-! ### Faults and frames -/

namespace RunFault

/-- A name that is not defined, a call with the wrong number of arguments, a statement out of place. -/
def isReference : RunFault → Bool
  | undefined .. | arity .. | misplaced _ | guardrail (.unknown _) => true
  | _ => false

def isUnbound : RunFault → Bool
  | value (.undefined _) => true
  | _ => false

/-- A kind of faults has all but those of names and variables. -/
def Ordinary (E : RunFault → Prop) : Prop :=
  ∀ fault : RunFault, fault.isReference = false → fault.isUnbound = false → E fault

def Loose (E : RunFault → Prop) : Prop := ∀ fault : RunFault, fault.isReference = true → E fault

end RunFault

/-- Faults that a block may end in: all but those of names and variables, and what is known of its calls. -/
structure Tolerates (E : RunFault → Prop) (c : Context) (calls : Calls) (defs : Definitions) : Prop where
  ordinary : RunFault.Ordinary E
  agent : ∀ name args bindings, defs.contains .agent name = true → Act.Faults E (calls.agent name args bindings)
  prompt : ∀ name args override bindings, defs.contains .prompt name = true →
    (∀ m ∈ override, defs.contains .model m = true) →
    Act.Faults E (calls.prompt name args override bindings)
  flow : ∀ name args, defs.TakesArgs name args.length → Act.Faults E (calls.flow name args)
  guardrail : ∀ name, defs.KnowsGuardrail name → (c.guardrails.get? name).isSome ∨ E (.guardrail (.unknown name))

/-- A frame in which a block may run: each variable of its scope has a value, unless it may be missing; the
globals are those of the run; and where guardrail actions may stand there is a text. -/
structure Frame.Covers (L : RunFault → Prop) (guarded : Bool) (globals : Table Json) (scope : Scope)
    (f : Frame) : Prop where
  bound : ∀ name ∈ scope, L (.value (.undefined name)) ∨ f.bindings.contains name = true
  globals : f.bindings.globals = globals
  guard : guarded = true → f.guard.isSome = true

namespace Frame.Covers

variable {L : RunFault → Prop} {guarded : Bool} {globals : Table Json} {scope' : Scope}

lemma mono (h : f.Covers L guarded globals scope) (hsub : ∀ name ∈ scope', name ∈ scope) :
    f.Covers L guarded globals scope' :=
  ⟨fun name hname => h.bound name (hsub name hname), h.globals, h.guard⟩

lemma union (h : f.Covers L guarded globals scope) (h' : f.Covers L guarded globals scope')
    {names : List String} (hsub : ∀ name ∈ names, name ∈ scope') :
    f.Covers L guarded globals (union scope names) := by
  refine ⟨fun name hname => ?_, h.globals, h.guard⟩
  exact (mem_union.1 hname).elim (h.bound name) fun hname => h'.bound name (hsub name hname)

lemma set (h : f.Covers L guarded globals scope) (name : String) (v : Json) :
    Covers L guarded globals (insert scope name) { f with bindings := f.bindings.set name v } := by
  refine ⟨fun other hother => ?_, h.globals, h.guard⟩
  rw [Bindings.contains_set, Bool.or_eq_true, decide_eq_true_eq]
  rcases mem_insert.1 hother with rfl | hother
  · exact .inr (.inl rfl)
  · exact (h.bound other hother).imp_right .inr

lemma set' (h : f.Covers L guarded globals scope) (name : String) (v : Json) :
    Covers L guarded globals scope { f with bindings := f.bindings.set name v } :=
  (h.set name v).mono fun _ => mem_insert.2 ∘ .inr

lemma erase (h : f.Covers L guarded globals scope) (name : String) :
    Covers L guarded globals (List.filter (· ≠ name) scope) { f with bindings := f.bindings.erase name } := by
  refine ⟨fun other hother => ?_, h.globals, h.guard⟩
  obtain ⟨hmem, hne⟩ := List.mem_filter.1 hother
  rw [Bindings.contains_erase (Ne.symm (of_decide_eq_true hne))]
  exact h.bound other hmem

lemma restore (h : f.Covers L guarded globals scope) {f' : Frame}
    (h' : f'.Covers L guarded globals (List.filter (· ≠ name) scope)) :
    Covers L guarded globals scope { f' with bindings := match f.bindings.locals.get? name with
      | some v => (f'.bindings.erase name).set name v
      | none => f'.bindings.erase name } := by
  have hglobals := h'.globals
  refine ⟨fun other hother => Classical.or_iff_not_imp_left.2 fun hneeded => ?_, by split <;> exact hglobals, h'.guard⟩
  refine Bindings.contains_restore (hglobals.trans h.globals.symm)
    ((h.bound other hother).resolve_left hneeded) fun hne => ?_
  refine (h'.bound other (List.mem_filter.2 ⟨hother, ?_⟩)).resolve_left hneeded
  exact decide_eq_true (Ne.symm hne)

end Frame.Covers

/-! ### Statements -/

namespace Exec

variable {E L : RunFault → Prop} {c : Context} {calls : Calls} {defs : Definitions} {guarded : Bool}
  {globals : Table Json} {var : String} {control : Control}

/-- From a frame that covers a scope a process leads to one that covers another, or to a fault of a kind. -/
abbrev Carries {α : Type} (E L : RunFault → Prop) (guarded : Bool) (globals : Table Json) (scope : Scope) (x : Exec α)
    (after : Scope) : Prop :=
  Spec E (Frame.Covers L guarded globals scope) x fun _ => Frame.Covers L guarded globals after

lemma carries_visible : Carries E L guarded globals scope visible scope :=
  triple_get fun _ hf => triple_pure fun _ heq => heq ▸ hf

lemma spec_assign (name : String) (v : Json) : Carries E L guarded globals scope (assign name v) (insert scope name) :=
  triple_change (fun _ hf => hf.set name v) nofun

lemma spec_assignTo (target : Option String) (v : Json) :
    Carries E L guarded globals scope (assignTo target v) (union scope target.toList) := by
  cases target with
  | none => exact triple_pure fun _ hf => hf
  | some name => exact spec_assign name v

lemma spec_turns {inner : Frame → Prop} (bounded : Bool) (hbody : Spec E inner body fun _ => inner) :
    ∀ n, Spec E inner (turns bounded body n) fun _ => inner
  | 0 => by
    unfold turns
    split
    · exact triple_pure fun _ hf => hf
    · exact spec_ofAct Act.faults_stuck
  | n + 1 => by
    refine (triple_lift _).bind fun _ => hbody.bind fun control => ?_
    cases control with
    | ret v => exact triple_pure fun _ hf => hf
    | _ => exact spec_turns bounded hbody n

lemma spec_eachItem (hbody : Carries E L guarded globals (insert scope var) body (insert scope var)) : ∀ items,
    Carries E L guarded globals (List.filter (· ≠ var) scope) (eachItem var body items) (List.filter (· ≠ var) scope)
  | [] => triple_pure fun _ hf => hf
  | v :: rest => by
    refine (triple_lift _).bind fun _ => (spec_assign var v).bind fun _ => ?_
    have hsub : ∀ name ∈ insert scope var, name ∈ insert (List.filter (· ≠ var) scope) var := by
      intro name hname
      by_cases h : name = var
      · exact mem_insert.2 (.inl h)
      · have hmem := (mem_insert.1 hname).resolve_left h
        exact mem_insert.2 (.inr (List.mem_filter.2 ⟨hmem, decide_eq_true h⟩))
    have hless : ∀ name ∈ List.filter (· ≠ var) scope, name ∈ insert scope var :=
      fun name hname => mem_insert.2 (.inr (List.mem_filter.1 hname).1)
    refine (hbody.weaken (fun _ hf => hf.mono hsub) fun _ _ hf => hf.mono hless).bind fun control => ?_
    cases control with
    | ret v => exact triple_pure fun _ hf => hf
    | _ => exact spec_eachItem hbody rest

/-- How a block in a scope may end: the scope is covered still, and so is the scope behind the block if that is
reached. -/
def Ends (L : RunFault → Prop) (guarded : Bool) (globals : Table Json) (scope after : Scope)
    (control : Control) (f : Frame) : Prop :=
  f.Covers L guarded globals scope ∧ (control = .next → f.Covers L guarded globals after)

abbrev Leads (E L : RunFault → Prop) (guarded : Bool) (globals : Table Json) (scope : Scope) (x : Exec Control)
    (after : Scope) : Prop :=
  Spec E (Frame.Covers L guarded globals scope) x (Ends L guarded globals scope after)

lemma ends_of_covers (h : f.Covers L guarded globals scope) :
    Ends L guarded globals scope scope control f := ⟨h, fun _ => h⟩

lemma ends_union {names : List String} (h : f.Covers L guarded globals (union scope names)) :
    Ends L guarded globals scope (union scope names) control f :=
  ⟨h.mono fun _ => mem_union.2 ∘ .inl, fun _ => h⟩

lemma spec_branchTargets : ∀ {branches : List ParallelCall} {answers : List Answer} {scope : Scope},
    answers.length = branches.length → Carries E L guarded globals scope
      ((branches.zip answers).forM fun (b, answer) => assignTo b.target answer.value)
      (union scope (branches.flatMap (·.target.toList)))
  | [], [], _, _ => triple_pure fun _ hf => hf
  | b :: rest, answer :: answers, scope, h => by
    refine (spec_assignTo b.target answer.value).bind fun _ => ?_
    refine (spec_branchTargets (Nat.succ.inj h)).imp fun _ _ hf => hf.mono ?_
    intro name hname
    simpa [or_assoc] using hname

lemma spec_guardAction (hE : Tolerates E c calls defs) {kind : GuardKind} {name : String}
    {message : Option String} (hguarded : guarded = true) (hname : defs.KnowsGuardrail name) :
    Carries E L guarded globals scope (c.guardAction kind name message) scope := by
  have hfind : ∀ {α : Type} (use : Guardrail → α), Act.Faults E (Act.ofExcept
      (((c.guardrails.find name).bind fun g => .ok (use g)).mapError RunFault.guardrail)) := by
    intro α use
    refine Act.faults_ofExcept fun fault h => ?_
    unfold Guardrails.find at h
    rcases hE.guardrail name hname with hknown | htolerated
    · obtain ⟨g, hg⟩ := Option.isSome_iff_exists.1 hknown
      rw [hg] at h
      cases h
    · split at h
      · cases h
      · cases h
        exact htolerated
  refine triple_get fun f hf => ?_
  obtain ⟨text, htext⟩ := Option.isSome_iff_exists.1 (hf.guard hguarded)
  rw [htext]
  have hcheck := hfind (·.check text.text)
  have hset : ∀ guard, Carries E L guarded globals scope (modify fun f => { f with guard := some guard }) scope :=
    fun guard => triple_modify fun f hf => ⟨hf.bound, hf.globals, fun _ => rfl⟩
  have hnext : Carries E L guarded globals scope (pure Control.next) scope := triple_pure fun _ => id
  refine Spec.weaken ?_ (fun _ heq => heq ▸ hf) fun _ _ => id
  cases kind with
  | mask =>
    refine (spec_ofAct (hfind (·.mask text.text))).bind fun masked => (hset _).bind fun _ => ?_
    exact (spec_assign "input" (.str masked)).bind fun _ =>
      hnext.weaken (fun _ hf => hf.mono fun _ => mem_insert.2 ∘ .inr) fun _ _ => id
  | block =>
    refine (spec_ofAct hcheck).bind fun found => ?_
    cases found with
    | true => exact bind (spec_fail (hE.ordinary _ rfl rfl)) fun _ => hnext
    | false => exact hnext
  | warn =>
    refine (spec_ofAct hcheck).bind fun found => ?_
    cases found with
    | true => exact (triple_lift _).bind fun _ => hnext
    | false => exact hnext
  | retry =>
    refine (spec_ofAct hcheck).bind fun found => ?_
    cases found with
    | true => exact (hset _).bind fun _ => hnext
    | false => exact hnext

section

variable (hE : Tolerates E c calls defs) (hL : ∀ fault, L fault → E fault)

include hE hL

lemma tolerated {α : Type}
    (hf : f.Covers L guarded globals scope) {within : Scope → Prop} {x : Except ValueError α} {e : ValueError}
    (hx : Except.Only ValueError.undefined (f.bindings.Lacks within) x) (hscope : within scope)
    (h : x = .error e) : E (.value e) := by
  cases e with
  | undefined name =>
    have hlacks := hx name h
    have hbound := hf.bound name (hlacks.read scope hscope)
    exact hL _ (hbound.resolve_right (Bool.eq_false_iff.1 hlacks.unbound))
  | _ => exact hE.ordinary _ rfl rfl

lemma spec_eval {t : Term} (ht : t.Within scope) : Carries E L guarded globals scope (eval t) scope := by
  refine triple_get fun f hf => ?_
  cases heval : t.eval f.bindings with
  | ok v => exact triple_pure fun _ heq => heq ▸ hf
  | error e => exact spec_fail (tolerated hE hL hf (t.eval_lacks f.bindings) ht heval)

lemma spec_evalAll {ts : List Term} (h : Term.AllWithin scope ts) :
    Spec E (Frame.Covers L guarded globals scope) (evalAll ts) fun vs f =>
      vs.length = ts.length ∧ f.Covers L guarded globals scope := by
  induction ts with
  | nil => exact triple_pure fun _ hf => ⟨rfl, hf⟩
  | cons t rest ih =>
    refine (spec_eval hE hL h.1).bind fun v => (ih h.2).bind fun vs => ?_
    exact triple_pure fun f hf => ⟨congrArg (· + 1) hf.1, hf.2⟩

lemma spec_forEach {iterable : Term} (hiterable : iterable.Within scope)
    (hbody : Carries E L guarded globals (insert scope var) body (insert scope var)) :
    Carries E L guarded globals scope (forEach var iterable body) scope := by
  refine (spec_eval hE hL hiterable).bind fun v => ?_
  cases v with
  | arr items =>
    refine triple_get fun f hf => ?_
    have herase : Spec E (· = f) (change fun b => (b.erase var, .ok ())) fun _ =>
        Frame.Covers L guarded globals (List.filter (· ≠ var) scope) :=
      triple_change (fun f' heq => heq ▸ hf.erase var) nofun
    refine herase.bind fun _ => ?_
    refine (spec_eachItem hbody items).lastly ?_ fun control => ?_
    · exact triple_change (fun _ _ => trivial) nofun
    · exact triple_change (fun f' hf' => hf.restore hf') nofun
  | _ => exact spec_fail (hE.ordinary _ rfl rfl)

lemma spec_settle {source : String} {target : Option String}
    {onEscalate : Option (EscalateAction Term)} (hescalate : EscalateAction.Within scope onEscalate)
    (answer : Answer) :
    Leads E L guarded globals scope (settle source target onEscalate answer) (union scope target.toList) := by
  unfold settle
  split
  · refine (spec_eval hE hL hescalate).bind fun v => triple_pure fun f hf => ⟨hf, nofun⟩
  · exact triple_pure fun f hf => ⟨hf, nofun⟩
  · exact spec_fail (hE.ordinary _ rfl rfl)
  · exact (spec_assignTo target _).bind fun _ => triple_pure fun f hf => ends_union hf

lemma spec_branchArgs : ∀ {branches : List ParallelCall}, (∀ b ∈ branches, Term.AllWithin scope b.args) →
    Spec E (Frame.Covers L guarded globals scope) (branches.mapM fun b => evalAll b.args)
      fun args f => args.length = branches.length ∧ f.Covers L guarded globals scope
  | [], _ => triple_pure fun _ hf => ⟨rfl, hf⟩
  | b :: rest, h => by
    rw [List.mapM_cons]
    refine (spec_evalAll hE hL (h b List.mem_cons_self)).bind fun vs => ?_
    refine ((spec_branchArgs fun b' hb' => h b' (.tail _ hb')).weaken
      (fun _ hf => hf.2) fun _ _ => id).bind fun args => ?_
    exact triple_pure fun f hf => ⟨congrArg (· + 1) hf.1, hf.2⟩

lemma spec_parallel {branches : List ParallelCall}
    (h : ∀ b ∈ branches, defs.contains .agent b.agent = true ∧ Term.AllWithin scope b.args) :
    Carries E L guarded globals scope (parallel calls branches) (union scope (branches.flatMap (·.target.toList))) := by
  refine carries_visible.bind fun bindings => ?_
  refine (spec_branchArgs hE hL fun b hb => (h b hb).2).bind fun args => ?_
  have hprocesses : ∀ p ∈ (branches.zip args).map fun x => (calls.agent x.1.agent x.2 bindings).run,
      ∀ e, p.Yields (.error e) → E e.fault := by
    intro p hp
    obtain ⟨⟨b, vs⟩, hzip, rfl⟩ := List.mem_map.1 hp
    exact hE.agent b.agent vs bindings (h b (List.of_mem_zip hzip).1).1
  refine bind (triple_branches hprocesses) fun r => ?_
  refine triple_of_pre fun f hf => ?_
  cases r with
  | error e => exact spec_throw hf.2
  | ok answers =>
    have hlength : answers.length = branches.length := by simpa [hf.1.1] using hf.2
    exact (spec_branchTargets hlength).weaken (fun _ hf => hf.1.2) fun _ _ => id

end

end Exec

/-! ### Blocks -/

namespace Context

open Exec (Triple Carries Leads carries_visible ends_of_covers ends_union triple_pure spec_fail triple_lift spec_ofAct)

variable {E L : RunFault → Prop} {c : Context} {calls : Calls} {defs : Definitions} {guarded : Bool}
  {globals : Table Json} {rest is : List Instr} {bound : Nat} {i : Instr}

lemma execInstr_spec (hE : Tolerates E c calls defs) (hL : ∀ fault, L fault → E fault) (bound line : Nat)
    {op : Op} (h : op.Approved defs guarded scope) :
    Leads E L guarded globals scope (c.execInstr calls bound (.mk line op [])) (union scope op.defines) := by
  unfold execInstr
  cases op with
  | assign target value =>
    refine (spec_eval hE hL h).bind fun v => (spec_assign target v).bind fun _ => ?_
    exact triple_pure fun f hf => ends_union hf
  | setPath target path value =>
    refine (spec_eval hE hL h.2).bind fun v => ?_
    have hchange : Carries E L guarded globals scope (change fun b => b.setPath target path v) scope := by
      refine triple_change (fun f hf => ?_) fun f e hf he => ?_
      · rcases f.bindings.setPath_fst target path v with heq | ⟨w, heq⟩
        · rwa [heq]
        · rw [heq]
          exact hf.set' target w
      · exact tolerated hE hL hf (f.bindings.setPath_lacks target path v) h.1 he
    exact hchange.bind fun _ => triple_pure fun f hf => ends_of_covers hf
  | runAgent target name args onEscalate =>
    refine (spec_evalAll hE hL h.2.1).bind fun vs => ?_
    refine (carries_visible.weaken (fun _ hf => hf.2) fun _ _ => id).bind fun bindings => ?_
    refine (spec_ofAct (hE.agent name vs bindings h.1)).bind fun answer => ?_
    exact spec_settle hE hL h.2.2 answer
  | callPrompt target name args override onEscalate =>
    refine (spec_evalAll hE hL h.2.2.1).bind fun vs => ?_
    refine (carries_visible.weaken (fun _ hf => hf.2) fun _ _ => id).bind fun bindings => ?_
    refine (spec_ofAct (hE.prompt name vs override bindings h.1 h.2.1)).bind fun answer => ?_
    exact spec_settle hE hL h.2.2.2 answer
  | runFlow target name args =>
    refine (spec_evalAll hE hL h.2).bind fun vs => triple_of_pre fun f hf => ?_
    have hflow := hE.flow name vs (hf.1.symm ▸ h.1)
    refine ((spec_ofAct hflow).weaken (fun _ hf => hf.2) fun _ _ => id).bind fun v => ?_
    exact (spec_assignTo target v).bind fun _ => triple_pure fun f hf => ends_union hf
  | parallel branches =>
    exact (spec_parallel hE hL h).bind fun _ => triple_pure fun f hf => ends_union hf
  | ret value => exact (spec_eval hE hL h).bind fun v => triple_pure fun f hf => ends_of_covers hf
  | «continue» => exact triple_pure fun f hf => ends_of_covers hf
  | abort message =>
    cases message with
    | none => exact spec_fail (hE.ordinary _ rfl rfl)
    | some message =>
      exact (spec_eval hE hL (h message rfl)).bind fun v => spec_fail (hE.ordinary _ rfl rfl)
  | push value target =>
    refine (spec_eval hE hL h).bind fun v => ?_
    have hchange : Carries E L guarded globals scope (change fun b => b.push target v) (insert scope target) := by
      refine triple_change (fun f hf => ?_) fun f e hf he => ?_
      · obtain ⟨w, heq⟩ := f.bindings.push_fst target v
        rw [heq]
        exact hf.set target w
      · have hpush : Except.Only ValueError.undefined (f.bindings.Lacks fun _ => True) _ :=
          .of_avoids (f.bindings.push_notUndefined target v)
        exact tolerated hE hL hf hpush trivial he
    exact hchange.bind fun _ => triple_pure fun f hf => ends_union hf
  | log message =>
    refine (spec_eval hE hL h).bind fun v => (triple_lift _).bind fun _ => ?_
    exact triple_pure fun f hf => ends_of_covers hf
  | guard kind name message =>
    exact (spec_guardAction hE h.1 h.2).imp fun _ _ hf => ends_of_covers hf
  | _ => exact absurd h id

lemma spec_andThen {mid : Scope} (hsub : ∀ name ∈ scope, name ∈ mid) {first rest : Exec Control}
    (hfirst : Leads E L guarded globals scope first mid)
    (hrest : Leads E L guarded globals mid rest after) :
    Leads E L guarded globals scope (do match ← first with
        | .next => rest
        | control => pure control) after := by
  refine hfirst.bind fun control => ?_
  cases control with
  | next => exact hrest.weaken (fun _ hf => hf.2 rfl) fun _ _ hf => ⟨hf.1.mono hsub, hf.2⟩
  | _ => exact triple_pure fun _ hf => ⟨hf.1, nofun⟩

lemma execBlock_step
    (h : ∀ condition line body others, i.op = .branch condition → rest ≠ .mk line .otherwise body :: others) :
    c.execBlock calls bound (i :: rest) = (do
      match ← located i (c.site i.line) (c.execInstr calls bound i) with
      | .next => c.execBlock calls bound rest
      | control => pure control) := by
  refine execBlock.eq_3 c calls bound i rest fun _ condition _ elseLine other others hi hrest => ?_
  exact h condition elseLine other others (hi ▸ rfl) hrest

lemma execBlock_cons (h : ∀ line body others, rest ≠ .mk line .otherwise body :: others) :
    c.execBlock calls bound (i :: rest) = (do
      match ← located i (c.site i.line) (c.execInstr calls bound i) with
      | .next => c.execBlock calls bound rest
      | control => pure control) :=
  execBlock_step fun _ line body others _ => h line body others

lemma ne_otherwise_of_approved (h : Approved defs guarded scope is after) (line : Nat)
    (body others : List Instr) : is ≠ .mk line .otherwise body :: others := by
  rintro rfl
  cases h with
  | step approved _ => exact approved

lemma leads_cons {mid : Scope} (hsub : ∀ name ∈ scope, name ∈ mid) (next : Approved defs guarded mid rest after)
    (hfirst : Leads E L guarded globals scope (c.execInstr calls bound i) mid)
    (hrest : Leads E L guarded globals mid (c.execBlock calls bound rest) after) :
    Leads E L guarded globals scope (c.execBlock calls bound (i :: rest)) after := by
  rw [execBlock_cons (ne_otherwise_of_approved next)]
  exact spec_andThen hsub (located hfirst _) hrest

section

variable (hE : Tolerates E c calls defs) (hL : ∀ fault, L fault → E fault) (bound : Nat)

include hE hL

set_option linter.unusedSectionVars false in
mutual

theorem execBlock_ends : ∀ {scope after is}, Approved defs guarded scope is after →
    Leads E L guarded globals scope (c.execBlock calls bound is) after
  | scope, _, _, .nil => by
    rw [execBlock]
    exact triple_pure fun _ hf => ends_of_covers hf
  | scope, _, _, .step approved next => by
    exact leads_cons (fun _ => mem_union.2 ∘ .inl) next (execInstr_spec hE hL bound _ approved)
      (execBlock_ends next)
  | scope, _, _, .loop inside next => by
    refine leads_cons (fun _ => id) next ?_ (execBlock_ends next)
    rw [execInstr]
    refine (spec_turns _ ?_ _).imp fun _ _ hf => ends_of_covers hf
    exact (execBlock_ends inside).imp fun _ _ hf => hf.1
  | scope, _, _, .forEach reads inside next => by
    refine leads_cons (fun _ => id) next ?_ (execBlock_ends next)
    rw [execInstr]
    refine (spec_forEach hE hL reads ?_).imp fun _ _ hf => ends_of_covers hf
    exact (execBlock_ends inside).imp fun _ _ hf => hf.1
  | scope, _, _, .branch reads inside next => by
    refine leads_cons (fun _ => id) next ?_ (execBlock_ends next)
    rw [execInstr]
    refine (spec_eval hE hL reads).bind fun v => ?_
    split
    · exact (execBlock_ends inside).imp fun _ _ hf => ends_of_covers hf.1
    · exact triple_pure fun _ hf => ends_of_covers hf
  | scope, _, _, .branchElse reads inside insideElse next => by
    rw [execBlock]
    refine spec_andThen (fun _ => mem_union.2 ∘ .inl) (located ?_ _) (execBlock_ends next)
    refine (spec_eval hE hL reads).bind fun v => ?_
    -- each branch defines what the scope behind both has on top
    split
    · refine (execBlock_ends inside).imp fun _ _ hf => ⟨hf.1, fun h => ?_⟩
      exact hf.1.union (hf.2 h) fun _ hname => (mem_inter.1 hname).1
    · refine (execBlock_ends insideElse).imp fun _ _ hf => ⟨hf.1, fun h => ?_⟩
      exact hf.1.union (hf.2 h) fun _ hname => (mem_inter.1 hname).2
  | scope, _, _, .select reads inside next => by
    refine leads_cons (fun _ => id) next ?_ (execBlock_ends next)
    rw [execInstr]
    refine (spec_eval hE hL reads).bind fun v => ?_
    exact (execArms_ends inside v).imp fun _ _ hf => ends_of_covers hf

theorem execArms_ends : ∀ {scope is}, ApprovedArms defs guarded scope is → ∀ v : Json,
    Carries E L guarded globals scope (c.execArms calls bound v is) scope
  | scope, _, .nil, v => by
    rw [execArms]
    exact triple_pure fun _ => id
  | scope, _, @ApprovedArms.arm _ _ _ _ _ pattern _ _ inside next, v => by
    have hinside := (execBlock_ends inside).imp fun _ _ hf => hf.1
    cases pattern with
    | none =>
      rw [execArms]
      exact hinside
    | some pattern =>
      rw [execArms]
      split
      · exact hinside
      · exact execArms_ends next v

end

end

lemma execBlock_spec (hE : Tolerates E c calls defs) (bound : Nat) (h : Approved defs guarded scope is after) :
    Leads E E guarded globals scope (c.execBlock calls bound is) after := execBlock_ends hE (fun _ => id) bound h

end Context

end Workflow
