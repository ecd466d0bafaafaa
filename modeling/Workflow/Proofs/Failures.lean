import Workflow.Proofs.Raising
import Workflow.Proofs.Stopping

/-!
Failure blocks. The analysis lets a failure block read what is in scope at its place in the flow. But it starts
wherever the body fails: if that is in front of its place, the block can count only on what is in scope at the
statement that failed.
-/

namespace Workflow

open Analysis Stmt

/-! ### The place of a failure block -/

namespace Analysis

variable {defs : Definitions} {c : Context}

lemma checkBlock_append : ∀ (ss ts : List Stmt) (w : Walk),
    checkBlock defs c w (ss ++ ts) = checkBlock defs c (checkBlock defs c w ss) ts
  | [], _, _ => rfl
  | s :: ss, ts, w => checkBlock_append ss ts (checkStmt defs c w s)

lemma approved_at_failure (hdefs : defs.Faithful) (htop : c.flowTop = true) {before behind body : List Stmt}
    {span : Span} {w : Walk}
    (h : Harmless (checkBlock defs c w (before ++ .failure body span :: behind)).problems) :
    ∃ admitted after last, (∀ is, Instr.bareAll is = allInstrs (steps before) →
        Approved defs c.guarded w.scope is admitted) ∧
      (∀ is, Instr.bareAll is = allInstrs (steps behind) → Approved defs c.guarded admitted is after) ∧
      ∀ is, Instr.bareAll is = allInstrs body →
        Approved defs c.guarded (Scope.insert admitted "error") is last := by
  rw [checkBlock_append] at h
  generalize hwalk : checkBlock defs c w before = place at h
  have hinside := (extends_checkBlock behind c _).harmless h
  have hbefore : Harmless (checkBlock defs c w before).problems := by
    rw [hwalk]
    exact (extends_checkStmt (.failure body span) c place).harmless hinside
  obtain ⟨-, -, hfront, -⟩ := approved_body hdefs htop before w hbefore
  obtain ⟨-, -, hback, -⟩ := approved_body hdefs htop behind (checkStmt defs c place (.failure body span)) h
  rw [hwalk] at hfront
  exact ⟨place.scope, _, _, hfront, hback, fun is his => approved_block hdefs body c.nested _ rfl hinside his⟩

end Analysis

/-- The place of the failure block of a flow: it has some statements of the body in front of it and the others
behind it, and may read what is in scope there. -/
structure FlowUnit.FailureAt (f : FlowUnit) (programs : List Program) (entry : Scope)
    (block before behind : List Instr) (admitted : Scope) : Prop where
  source : ∃ d pre body span post, .flow d ∈ Lower.decls programs ∧ f.bare = d.flow ∧
    d.body = pre ++ .failure body span :: post ∧
    Instr.bareAll before = allInstrs (steps pre) ∧ Instr.bareAll block = allInstrs body
  body : f.body = before ++ behind
  known : ∀ var, var ∈ entry ↔ var ∈ globals programs ∨ var = "input" ∨ var ∈ f.params
  front : Approved (Definitions.listed programs) false entry before admitted
  rest : ∃ after, Approved (Definitions.listed programs) false admitted behind after
  block : ∃ after, Approved (Definitions.listed programs) false (Scope.insert admitted "error") block after

lemma CompiledUnit.Lowers.failureAt {u : CompiledUnit} {programs : List Program}
    (h : u.Lowers (Lower.decls programs)) (hclean : Analysis.Clean programs) {name : String} {f : FlowUnit}
    (hf : u.flows.get? name = some f) {block : List Instr} (hblock : f.onFailure = some block) :
    ∃ entry before behind admitted, f.FailureAt programs entry block before behind admitted := by
  obtain ⟨d, hd, hbare⟩ := decl_of_flow h hf
  have hchecked : Analysis.Harmless (checkFlow (Definitions.listed programs)
    (globals programs) d) := checked_of_clean hclean hd
  have hparams : f.params = plainNames d.params := congrArg FlowUnit.params hbare
  have hbody : Instr.bareAll f.body = allInstrs (steps d.body) :=
    congrArg FlowUnit.body hbare
  have hfailure : f.onFailure.map Instr.bareAll = (failures d.body).head?.map allInstrs :=
    congrArg FlowUnit.onFailure hbare
  rw [hblock] at hfailure
  obtain ⟨body, hhead, hinstrs⟩ := Option.map_eq_some_iff.1 hfailure.symm
  obtain ⟨s, hs, hsome⟩ := List.mem_filterMap.1 (List.mem_of_mem_head? hhead)
  obtain ⟨span, rfl⟩ := eq_failure hsome
  obtain ⟨before, behind, hsplit⟩ := List.append_of_mem hs
  have hproblems := (harmless_append.1 hchecked).2
  rw [hsplit] at hproblems
  obtain ⟨admitted, after, last, hfront, hback, hfails⟩ := approved_at_failure
    (Definitions.faithful_listed programs) rfl hproblems
  have hsteps : steps d.body = steps before ++ steps behind := by
    rw [hsplit, steps, List.filter_append, ← steps, ← steps, steps_cons_some hsome]
  rw [hsteps, allInstrs_append] at hbody
  obtain ⟨front, back, hbody, hfront', hback'⟩ := Instr.bareAll_eq_append hbody
  exact ⟨_, front, back, admitted, ⟨d, before, body, span, behind, hd, hbare, hsplit, hfront', hinstrs.symm⟩,
    hbody, fun var => hparams ▸ mem_entry, hfront front hfront', ⟨_, hback back hback'⟩,
    ⟨_, hfails block hinstrs.symm⟩⟩

/-! ### What a failure block can read -/

namespace Context

variable {c : Context} {calls : Calls} {bound : Nat} {defs : Definitions} {guarded : Bool}
  {scope mid after : Scope} {front back : List Instr} {frame frame' : Frame} {e : RunError}

lemma error_of_append (hfront : Approved defs guarded scope front mid) (hback : Approved defs guarded mid back after)
    (hr : ((c.execBlock calls bound (front ++ back)).run.run frame).Yields (.error e, frame')) :
    ((c.execBlock calls bound front).run.run frame).Yields (.error e, frame') ∨
    ∃ reached, ((c.execBlock calls bound front).run.run frame).Yields (.ok .next, reached) ∧
      ((c.execBlock calls bound back).run.run reached).Yields (.error e, frame') := by
  rw [execBlock_append hfront (ne_otherwise_of_approved hback)] at hr
  obtain ⟨⟨r, reached⟩, h₁, h₂⟩ := Process.Yields.of_bind hr
  rcases r with e' | control
  · cases h₂
    exact .inl h₁
  · cases control with
    | next => exact .inr ⟨reached, h₁, h₂⟩
    | «continue» | ret v => cases h₂

end Context

lemma Frame.contains_failed {frame : Frame} {e : RunError} {var : String}
    (h : var = "error" ∨ frame.bindings.contains var = true) :
    (frame.failed e).bindings.contains var = true := by
  rw [Frame.failed, Bindings.contains_set, Bool.or_eq_true, decide_eq_true_eq]
  exact h.imp_left Eq.symm

lemma FlowUnit.FailureAt.reads {f : FlowUnit} {programs : List Program} {entry admitted : Scope}
    {block before behind : List Instr} (h : f.FailureAt programs entry block before behind admitted)
    (c : Context) {frame : Frame} (e : RunError) {var : String}
    (hvar : var ∈ admitted → var = "error" ∨ frame.bindings.contains var = true) :
    c.Reads block (frame.failed e) var := by
  obtain ⟨after, happroved⟩ := h.block
  refine Context.reads_of_bound happroved (fun hmem => ?_) nofun
  exact Frame.contains_failed ((Scope.mem_insert.1 hmem).elim .inl hvar)

namespace Scene

/-- The failure block of a flow starts where the body fails. If that is behind its place, it misses no variable.
If that is in a statement in front of it, it misses none that is in scope at the statement, and no other but
those that are assigned from there to its place. -/
theorem failure_misses_only_unreached {config : CompilerConfig} {files : Files} {source name : String}
    {root : Program} {loaded : Loaded} {compiled : Compiled}
    (hroot : Program.ofSource source name = .ok root) (hloaded : root.load files = .ok loaded)
    (hcompiled : compile config files source name = .ok compiled) {s : Scene}
    (hunit : s.unit = compiled.unit) {flow : String} {f : FlowUnit} {block : List Instr}
    (hf : s.unit.flows.get? flow = some f) (hblock : f.onFailure = some block) {args : List Json}
    (hargs : f.params.length = args.length ∨ f.params = []) {calls : Calls} {bound : Nat} {e : RunError}
    {frame : Frame} (hfails : ((s.execBlock calls bound f.body).run.run (s.flowFrame f args)).Yields
      (.error e, frame)) :
    ∃ entry before behind admitted, f.FailureAt (root :: loaded.imports) entry block before behind admitted ∧
      ((∃ mid, ((s.execBlock calls bound before).run.run (s.flowFrame f args)).Yields (.ok .next, mid) ∧
          ((s.execBlock calls bound behind).run.run mid).Yields (.error e, frame)) ∧
        (∀ var, (var ∈ Analysis.globals (root :: loaded.imports) → s.globals.contains var = true) →
          s.Reads block (frame.failed e) var) ∨
      ∃ done step reached, Approved (Definitions.listed (root :: loaded.imports)) false entry done reached ∧
        s.StopsIn calls bound before (s.flowFrame f args) (.error e) frame done step ∧
        ∀ var, (var ∈ Analysis.globals (root :: loaded.imports) → s.globals.contains var = true) →
          (var ∈ admitted → var = "error" ∨ var ∈ reached) → s.Reads block (frame.failed e) var) := by
  obtain ⟨hclean, hlowers⟩ := lowers_of_compile hroot hloaded hcompiled
  rw [← hunit] at hlowers
  obtain ⟨entry, before, behind, admitted, hplace⟩ := hlowers.failureAt hclean hf hblock
  obtain ⟨after, hrest⟩ := hplace.rest
  refine ⟨entry, before, behind, admitted, hplace, ?_⟩
  have hstart : ∀ var, (var ∈ Analysis.globals (root :: loaded.imports) → s.globals.contains var = true) →
      (s.flowFrame f args).Covers (· ≠ .value (.undefined var)) false (s.flowFrame f args).bindings.globals entry := by
    refine fun var hvar => Frame.Covers.of_bound (fun hmem => ?_) nofun
    exact contains_flowFrame hargs (((hplace.known var).1 hmem).imp_left hvar)
  rw [hplace.body] at hfails
  rcases Context.error_of_append hplace.front hrest hfails with hfront | ⟨mid, hpassed, hback⟩
  · obtain ⟨done, step, reached, hreached, hstops⟩ :=
      (Context.stops_of_approved hplace.front hfront).resolve_left nofun
    refine .inr ⟨done, step, reached, hreached, hstops, fun var hglobal hvar => ?_⟩
    refine hplace.reads s.toContext e fun hmem => ?_
    exact (hvar hmem).imp_right (hstops.covers hreached (hstart var hglobal)).contains
  · refine .inl ⟨⟨mid, hpassed, hback⟩, fun var hglobal => ?_⟩
    refine hplace.reads s.toContext e fun hmem => .inr ?_
    have hmid := Context.covers_of_next hplace.front (hstart var hglobal) hpassed
    exact ((Context.execBlock_keeps bound behind).of_yields hmid hback).contains hmem

end Scene

/-! ### A variable that is not reached -/

/-- A source whose flow fails in front of the variable that its failure block reads. -/
def failureSource : String := "flow f:\n $y=$input.k\n $x=1\n on failure do\n  return $x\n end\n"

/-- Whether a flow takes a field of its input first, and its failure block returns a variable. -/
def FlowUnit.returnsUnreached : FlowUnit → Bool
  | ⟨_, [], _, .mk _ (.assign "y" (.path "input" ["k"])) _ :: _, some [.mk _ (.ret (.var "x")) _]⟩ => true
  | _ => false

/-- What the source compiles to. -/
structure FailureSample (root : Program) (loaded : Loaded) (compiled : Compiled) (f : FlowUnit) : Prop where
  parses : Program.ofSource failureSource "main.wv" = .ok root
  loads : root.load [] = .ok loaded
  compiles : compile {} [] failureSource "main.wv" = .ok compiled
  globals : globals (root :: loaded.imports) = []
  start : compiled.unit.handler? .start = none
  flow : compiled.unit.flows.get? "f" = some f
  shape : f.returnsUnreached = true

lemma exists_failureSample : ∃ root loaded compiled f, FailureSample root loaded compiled f := by
  obtain ⟨root, loaded, compiled, hroot, hloaded, hcompiled, h⟩ := Program.exists_of_compilesTo
    (show Program.compilesTo [] failureSource "main.wv" (fun root loaded compiled =>
      decide (globals (root :: loaded.imports) = []) && (compiled.unit.handler? .start).isNone
      && (compiled.unit.flows.get? "f").any FlowUnit.returnsUnreached) = true by decide +kernel)
  simp only [Bool.and_eq_true, decide_eq_true_eq, Option.isNone_iff_eq_none, Option.any_eq_true] at h
  obtain ⟨⟨hglobals, hstart⟩, f, hf, hshape⟩ := h
  exact ⟨root, loaded, compiled, f, hroot, hloaded, hcompiled, hglobals, hstart, hf, hshape⟩

lemma FailureSample.fails {root : Program} {loaded : Loaded} {compiled : Compiled} {f : FlowUnit}
    (h : FailureSample root loaded compiled f) {s : Scene} (hglobals : s.globals = []) (calls : Calls)
    (bound : Nat) : f.params = [] ∧ ∃ block e, f.onFailure = some block ∧ e.fault.isFatal = false ∧
      ((s.execBlock calls bound f.body).run.run (s.flowFrame f [])).Yields (.error e, s.flowFrame f []) ∧
      s.Raises calls bound block ((s.flowFrame f []).failed e) (.value (.undefined "x")) := by
  obtain ⟨c, globals⟩ := s
  subst hglobals
  have hshape := h.shape
  unfold FlowUnit.returnsUnreached at hshape
  split at hshape
  · exact ⟨rfl, _, _, rfl, rfl, .tell (.done _), _, _, .tell (.done _), rfl⟩
  · cases hshape

namespace Scene

theorem failure_misses_only_unreached_input : ∃ root loaded compiled f block e, ∃ s : Scene,
    Program.ofSource failureSource "main.wv" = .ok root ∧ root.load [] = .ok loaded ∧
    compile {} [] failureSource "main.wv" = .ok compiled ∧ s.unit = compiled.unit ∧
    s.unit.flows.get? "f" = some f ∧ f.onFailure = some block ∧ f.params = [] ∧
    ((s.execBlock (s.calls 0) 0 f.body).run.run (s.flowFrame f [])).Yields (.error e, s.flowFrame f []) ∧
    s.Reads block ((s.flowFrame f []).failed e) "input" := by
  obtain ⟨root, loaded, compiled, f, h⟩ := exists_failureSample
  have hglobal : "input" ∉ Analysis.globals (root :: loaded.imports) := by
    rw [h.globals]
    exact List.not_mem_nil
  let s : Scene := { unit := compiled.unit }
  obtain ⟨hparams, block, e, hblock, -, hfails, -⟩ := h.fails (s := s) rfl (s.calls 0) 0
  refine ⟨root, loaded, compiled, f, block, e, s, h.parses, h.loads, h.compiles, rfl, h.flow, hblock, hparams,
    hfails, ?_⟩
  obtain ⟨entry, before, behind, admitted, hplace, hcases⟩ := failure_misses_only_unreached
    h.parses h.loads h.compiles (s := s) rfl h.flow hblock (.inr hparams) hfails
  rcases hcases with ⟨-, hreads⟩ | ⟨done, step, reached, hreached, -, hreads⟩
  · exact hreads "input" fun hmem => absurd hmem hglobal
  · refine hreads "input" (fun hmem => absurd hmem hglobal) fun _ => .inr ?_
    exact hreached.subset "input" ((hplace.known "input").2 (.inr (.inl rfl)))

end Scene

/-- A run of the flow misses the variable that its failure block returns. -/
theorem Context.failure_misses_variable : ∃ compiled, compile {} [] failureSource "main.wv" = .ok compiled ∧
    ∀ c : Context, c.unit = compiled.unit → ∀ fuel,
      (c.process (fuel + 1) (.flow "f") []).Raises (.value (.undefined "x")) := by
  obtain ⟨root, loaded, compiled, f, h⟩ := exists_failureSample
  refine ⟨compiled, h.compiles, fun c hc fuel => ?_⟩
  obtain ⟨hparams, block, e, hblock, hfatal, hfails, hraises⟩ := h.fails (s := ⟨c, []⟩) rfl
    (Scene.calls ⟨c, []⟩ fuel) fuel
  have hstart : (c.start (fuel + 1) .null).run.Yields (.ok []) := by
    rw [start, hc, h.start]
    exact .done _
  refine raises_flow (hc ▸ h.flow) (.inr hparams) hstart ?_
  exact Scene.raises_failure hblock hfails hfatal hraises

end Workflow
