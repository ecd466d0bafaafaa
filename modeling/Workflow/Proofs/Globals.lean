import Workflow.Proofs.Raising
import Workflow.Proofs.Stopping

/-!
Globals. The analysis counts a variable among the globals if a start handler assigns it on every way through.
Where the start handlers come to their end, all of these have values. But a start handler may leave early, and
then only the variables in scope where it left have values for sure.
-/

namespace Workflow

variable {var : String} {programs : List Program} {u : CompiledUnit} {block : List Instr}

/-! ### Variables of the start -/

namespace Analysis

lemma mem_foldl_union {α : Type} {f : α → Scope} : ∀ {l : List α} {scope : Scope},
    var ∈ l.foldl (fun scope a => Scope.union scope (f a)) scope ↔ var ∈ scope ∨ ∃ a ∈ l, var ∈ f a
  | [], scope => by simp
  | a :: l, scope => by
    rw [List.foldl_cons, mem_foldl_union, Scope.mem_union, List.exists_mem_cons_iff, or_assoc]

lemma mem_globals : var ∈ globals programs ↔
    ∃ d : HandlerDef, .handler d ∈ Lower.decls programs ∧ d.event.node = .start ∧ var ∈ assignedBy d.body := by
  have hfold : globals programs =
      (Lower.decls programs).foldl (fun scope d => Scope.union scope (startVariables d)) [] := by
    rw [Lower.decls, List.foldl_flatMap]
    rfl
  rw [hfold, mem_foldl_union]
  constructor
  · rintro (h | ⟨d, hd, hvar⟩)
    · cases h
    · cases d with
      | handler d =>
        by_cases hevent : d.event.node = .start
        · rw [startVariables, if_pos hevent] at hvar
          exact ⟨d, hd, hevent, hvar⟩
        · rw [startVariables, if_neg hevent] at hvar
          cases hvar
      | _ => cases hvar
  · rintro ⟨d, hd, hevent, hvar⟩
    exact .inr ⟨.handler d, hd, by rwa [startVariables, if_pos hevent]⟩

end Analysis

lemma CompiledUnit.Lowers.startBlock (h : u.Lowers (Lower.decls programs)) (hclean : Analysis.Clean programs)
    (hblock : u.handler? .start = some block) :
    ∃ after, Approved (Definitions.listed programs) false ["input"] block after ∧
      ∀ var ∈ Analysis.globals programs, var ∈ after := by
  obtain ⟨after, happroved, hassigned⟩ := h.handlerScope hclean hblock
  refine ⟨after, happroved, fun var hvar => ?_⟩
  obtain ⟨d, hd, hevent, hvar⟩ := Analysis.mem_globals.1 hvar
  exact hassigned d hd hevent hvar

lemma CompiledUnit.Lowers.not_mem_globals (h : u.Lowers (Lower.decls programs))
    (hnone : u.handler? .start = none) : ∀ var, var ∉ Analysis.globals programs := by
  intro var hvar
  obtain ⟨d, hd, hevent, -⟩ := Analysis.mem_globals.1 hvar
  have hmem : d.body ∈ (Lower.decls programs).filterMap (Decl.handler? .start) :=
    mem_handlers.2 ⟨d, hd, hevent, rfl⟩
  obtain ⟨block, hblock⟩ := h.exists_handler (List.ne_nil_of_mem hmem)
  cases hnone.symm.trans hblock

/-! ### Globals of a run -/

namespace Scene

variable {s : Scene} {defs : Definitions} {globals : Scope}

/-- A scene provides a variable: it has a value among the globals, and neither the body of a flow nor a handler
of texts misses it. -/
structure Provides (s : Scene) (var : String) : Prop where
  bound : var ≠ "input" → s.globals.contains var = true
  flow : ∀ name f args, s.unit.flows.get? name = some f → (f.params.length = args.length ∨ f.params = []) →
    s.Reads f.body (s.flowFrame f args) var
  handler : ∀ event block, s.unit.handler? event = some block → event ≠ .start → ∀ text,
    s.Reads block (s.handlerFrame event text) var

lemma provides_of_bound (hlinked : s.unit.Linked defs globals)
    (hvar : var ≠ "input" → s.globals.contains var = true) : s.Provides var := by
  have hcases : s.globals.contains var = true ∨ var = "input" := by
    by_cases h : var = "input"
    · exact .inr h
    · exact .inl (hvar h)
  refine ⟨hvar, fun name f args hf hargs => ?_, fun event block hblock hevent text => ?_⟩
  · obtain ⟨scope, after, happroved, -⟩ := hlinked.body hf
    refine Context.reads_of_bound happroved (fun _ => ?_) nofun
    exact contains_flowFrame hargs (hcases.imp_right .inl)
  · obtain ⟨scope, after, happroved, -⟩ := hlinked.handler hblock
    exact Context.reads_of_bound happroved (fun _ => contains_frame hcases _) fun _ => rfl

end Scene

lemma Frame.Covers.contains_erase {frame : Frame} {scope : Scope}
    (h : frame.Covers (fun _ => False) false [] scope) (hvar : var ∈ scope) (hne : var ≠ "input") :
    (frame.bindings.locals.erase "input").contains var = true := by
  have hbound := (h.bound var hvar).resolve_left id
  rw [Bindings.contains, Bindings.get?, h.globals] at hbound
  rw [Table.contains, Table.get?_erase_of_ne _ hne.symm]
  cases hlocal : frame.bindings.locals.get? var with
  | none =>
    rw [hlocal] at hbound
    exact hbound
  | some v => rfl

namespace Context

lemma exists_of_start {c : Context} {fuel : Nat} {input : Json} {globals : Table Json}
    (hblock : c.unit.handler? .start = some block) (h : (c.start fuel input).run.Yields (.ok globals)) :
    ∃ control frame, ((c.execBlock (Scene.calls ⟨c, []⟩ fuel) fuel block).run.run (Scene.frame ⟨c, []⟩ input)).Yields
        (.ok control, frame) ∧ globals = frame.bindings.locals.erase "input" := by
  unfold start at h
  rw [hblock] at h
  obtain ⟨r, hr, h⟩ := Process.Yields.of_bind h
  rcases r with e | ⟨outcome, frame⟩
  · cases h
  · cases outcome with
    | error e => cases h
    | ok control =>
      cases h
      exact ⟨control, frame, Act.yields_of_lift hr, rfl⟩

/-- Where a start succeeds, its globals are those that the analysis counts on, unless a start handler leaves
early. Then all that is in scope at the statement in which it leaves is provided. -/
theorem start_provides_globals {config : CompilerConfig} {files : Files} {source name : String}
    {root : Program} {loaded : Loaded} {compiled : Compiled}
    (hroot : Program.ofSource source name = .ok root) (hloaded : root.load files = .ok loaded)
    (hcompiled : compile config files source name = .ok compiled) {c : Context}
    (hunit : c.unit = compiled.unit) {fuel : Nat} {input : Json} {globals : Table Json}
    (hstart : (c.start fuel input).run.Yields (.ok globals)) :
    (∀ var ∈ Analysis.globals (root :: loaded.imports), Scene.Provides ⟨c, globals⟩ var) ∨
    ∃ block done step reached control frame, c.unit.handler? .start = some block ∧
      Approved (Definitions.listed (root :: loaded.imports)) false ["input"] done reached ∧
      c.StopsIn (Scene.calls ⟨c, []⟩ fuel) fuel block (Scene.frame ⟨c, []⟩ input) (.ok control) frame done step ∧
      control ≠ .next ∧ globals = frame.bindings.locals.erase "input" ∧
      ∀ var ∈ reached, Scene.Provides ⟨c, globals⟩ var := by
  obtain ⟨hclean, hlowers⟩ := lowers_of_compile hroot hloaded hcompiled
  rw [← hunit] at hlowers
  have hlinked := hlowers.linked hclean
  cases hblock : c.unit.handler? .start with
  | none => exact .inl fun var hvar => absurd hvar (hlowers.not_mem_globals hblock var)
  | some block =>
    obtain ⟨after, happroved, hglobals⟩ := hlowers.startBlock hclean hblock
    obtain ⟨control, frame, hrun, rfl⟩ := exists_of_start hblock hstart
    have hframe : (Scene.frame ⟨c, []⟩ input).Covers (fun _ => False) false [] ["input"] :=
      ⟨List.forall_mem_singleton.2 (.inr rfl), rfl, nofun⟩
    by_cases hnext : control = .next
    · subst hnext
      have hafter := covers_of_next happroved hframe hrun
      refine .inl fun var hvar => Scene.provides_of_bound hlinked ?_
      exact hafter.contains_erase (hglobals var hvar)
    · obtain ⟨done, step, reached, hreached, hstops⟩ :=
        (stops_of_approved happroved hrun).resolve_left fun h => hnext (Except.ok.inj h)
      have hstopped := hstops.covers hreached hframe
      exact .inr ⟨block, done, step, reached, control, frame, rfl, hreached, hstops, hnext, rfl,
        fun var hvar => Scene.provides_of_bound hlinked (hstopped.contains_erase hvar)⟩

end Context

/-! ### A start that leaves early -/

/-- A source whose start handler returns in front of the variable that its flow reads. -/
def startSource : String := "on start do\n return\n $n=1\nend\nflow f:\n return $n\n"

/-- Whether a unit starts with a return, and has a flow that returns the variable of the start. -/
def CompiledUnit.returnsGlobal (u : CompiledUnit) : Bool :=
  match u.handler? .start, u.flows.get? "f" with
  | some (.mk _ (.ret (.literal .null)) _ :: _), some ⟨_, [], _, .mk _ (.ret (.var "n")) _ :: _, none⟩ => true
  | _, _ => false

lemma exists_startSample : ∃ root loaded compiled, Program.ofSource startSource "main.wv" = .ok root ∧
    root.load [] = .ok loaded ∧ compile {} [] startSource "main.wv" = .ok compiled ∧
    Analysis.globals (root :: loaded.imports) = ["n"] ∧ compiled.unit.returnsGlobal = true := by
  obtain ⟨root, loaded, compiled, hroot, hloaded, hcompiled, h⟩ := Program.exists_of_compilesTo
    (show Program.compilesTo [] startSource "main.wv" (fun root loaded compiled =>
      decide (Analysis.globals (root :: loaded.imports) = ["n"]) && compiled.unit.returnsGlobal) = true by
        decide +kernel)
  rw [Bool.and_eq_true, decide_eq_true_eq] at h
  exact ⟨root, loaded, compiled, hroot, hloaded, hcompiled, h⟩

lemma CompiledUnit.misses_of_returnsGlobal {c : Context} (h : c.unit.returnsGlobal = true) (fuel : Nat) :
    (c.start fuel .null).run.Yields (.ok []) ∧
      (c.process (fuel + 1) (.flow "f") []).Raises (.value (.undefined "n")) := by
  unfold returnsGlobal at h
  split at h
  · next hblock hflow =>
    have hstart : ∀ fuel, (c.start fuel .null).run.Yields (.ok []) := by
      intro fuel
      rw [Context.start, hblock]
      exact .done _
    refine ⟨hstart fuel, Context.raises_flow hflow (.inr rfl) (hstart (fuel + 1)) ?_⟩
    exact Scene.raises_runBody rfl ⟨_, _, .tell (.done _), rfl⟩
  · cases h

namespace Context

theorem start_provides_globals_sample : ∃ root loaded compiled block done step reached control frame,
    ∃ c : Context, Program.ofSource startSource "main.wv" = .ok root ∧ root.load [] = .ok loaded ∧
    compile {} [] startSource "main.wv" = .ok compiled ∧ c.unit = compiled.unit ∧
    (c.start 0 .null).run.Yields (.ok []) ∧ c.unit.handler? .start = some block ∧
    Approved (Definitions.listed (root :: loaded.imports)) false ["input"] done reached ∧
    c.StopsIn (Scene.calls ⟨c, []⟩ 0) 0 block (Scene.frame ⟨c, []⟩ .null) (.ok control) frame done step ∧
    control ≠ .next ∧ ∀ var ∈ reached, var = "input" := by
  obtain ⟨root, loaded, compiled, hroot, hloaded, hcompiled, hglobals, h⟩ := exists_startSample
  obtain ⟨hstart, -⟩ := @CompiledUnit.misses_of_returnsGlobal { unit := compiled.unit } h 0
  rcases start_provides_globals hroot hloaded hcompiled rfl hstart with
    hall | ⟨block, done, step, reached, control, frame, hblock, hreached, hstops, hnext, -, hprovides⟩
  · have hn := hall "n" (hglobals ▸ .head _)
    cases hn.bound nofun
  · refine ⟨root, loaded, compiled, block, done, step, reached, control, frame, { unit := compiled.unit },
      hroot, hloaded, hcompiled, rfl, hstart, hblock, hreached, hstops, hnext, fun var hvar => ?_⟩
    by_contra hne
    cases (hprovides var hvar).bound hne

/-- The start succeeds without the variable that a flow reads, which then misses it. -/
theorem start_misses_global : ∃ compiled, compile {} [] startSource "main.wv" = .ok compiled ∧
    ∀ c : Context, c.unit = compiled.unit → ∀ fuel, (c.start fuel .null).run.Yields (.ok []) ∧
      (c.process (fuel + 1) (.flow "f") []).Raises (.value (.undefined "n")) := by
  obtain ⟨root, loaded, compiled, -, -, hcompiled, -, h⟩ := exists_startSample
  exact ⟨compiled, hcompiled, fun c hc fuel => CompiledUnit.misses_of_returnsGlobal (hc ▸ h) fuel⟩

end Context

end Workflow
