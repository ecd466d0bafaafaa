import Workflow.Proofs.Runs

/-!
Variables that a run reads. Where the globals of a compiled unit have values, no body of a flow and no handler
of texts ever misses a variable of its own. A run that misses a variable all the same does so in a failure
block.
-/

namespace Workflow

/-! ### Faults of a block itself -/

def Act.Raises {α : Type} (x : Act α) (fault : RunFault) : Prop :=
  ∃ e : RunError, x.run.Yields (.error e) ∧ e.fault = fault

/-- A process without the courses of events in which it fails. -/
def Act.succeeding {α : Type} (x : Act α) : Act α := ExceptT.mk do
  match ← x.run with
  | .ok a => pure (.ok a)
  | .error _ => .stuck

lemma Act.faults_succeeding {α : Type} {E : RunFault → Prop} (x : Act α) : Act.Faults E x.succeeding := by
  intro e h
  obtain ⟨r, -, h⟩ := Process.Yields.of_bind h
  cases r <;> cases h

namespace Calls

/-- Something that can be called may end in a fault. -/
inductive Raises (calls : Calls) (fault : RunFault) : Prop where
  | agent (name : String) (args : List Json) (bindings : Table Json)
      (raised : (calls.agent name args bindings).Raises fault)
  | prompt (name : String) (args : List Json) (model : Option String) (bindings : Table Json)
      (raised : (calls.prompt name args model bindings).Raises fault)
  | flow (name : String) (args : List Json) (raised : (calls.flow name args).Raises fault)

def succeeding (calls : Calls) : Calls where
  agent name args bindings := (calls.agent name args bindings).succeeding
  prompt name args model bindings := (calls.prompt name args model bindings).succeeding
  flow name args := (calls.flow name args).succeeding

end Calls

namespace Frame.Covers

variable {guarded : Bool} {scope : Scope} {frame : Frame} {var : String}

lemma of_bound (hvar : var ∈ scope → frame.bindings.contains var = true)
    (hguard : guarded = true → frame.guard.isSome = true) :
    frame.Covers (· ≠ .value (.undefined var)) guarded frame.bindings.globals scope := by
  refine ⟨fun name hname => ?_, rfl, hguard⟩
  by_cases heq : name = var
  · exact .inr (heq ▸ hvar (heq ▸ hname))
  · refine .inl fun hfault => heq ?_
    cases hfault
    rfl

lemma contains {globals : Table Json}
    (h : frame.Covers (· ≠ .value (.undefined var)) guarded globals scope) (hvar : var ∈ scope) :
    frame.bindings.contains var = true := (h.bound var hvar).resolve_left fun hne => hne rfl

end Frame.Covers

namespace Context

variable {c : Context} {defs : Definitions} {guarded : Bool} {scope after : Scope} {block : List Instr} {frame : Frame}

def Raises (c : Context) (calls : Calls) (bound : Nat) (block : List Instr) (frame : Frame) (fault : RunFault) : Prop :=
  ∃ e frame', ((c.execBlock calls bound block).run.run frame).Yields (.error e, frame') ∧ e.fault = fault

/-- A block that starts in a frame does not miss a variable: it never ends in that fault unless some call does. -/
structure Reads (c : Context) (block : List Instr) (frame : Frame) (var : String) : Prop where
  itself : ∀ calls bound, ¬ c.Raises (Calls.succeeding calls) bound block frame (.value (.undefined var))
  called : ∀ calls bound, c.Raises calls bound block frame (.value (.undefined var)) →
    calls.Raises (.value (.undefined var))

lemma tolerates_succeeding (c : Context) (calls : Calls) (defs : Definitions) (var : String) :
    Tolerates (· ≠ .value (.undefined var)) c calls.succeeding defs where
  ordinary := by
    rintro _ _ h rfl
    cases h
  agent _ _ _ _ := Act.faults_succeeding _
  prompt _ _ _ _ _ _ := Act.faults_succeeding _
  flow _ _ _ := Act.faults_succeeding _
  guardrail _ _ := .inr nofun

lemma tolerates_raised (c : Context) (calls : Calls) (defs : Definitions) (var : String) :
    Tolerates (fun fault => fault ≠ .value (.undefined var) ∨ calls.Raises fault) c calls defs where
  ordinary := by
    rintro _ _ h
    refine .inl ?_
    rintro rfl
    cases h
  agent name args bindings _ e h := .inr (.agent name args bindings ⟨e, h, rfl⟩)
  prompt name args model bindings _ _ e h := .inr (.prompt name args model bindings ⟨e, h, rfl⟩)
  flow name args _ e h := .inr (.flow name args ⟨e, h, rfl⟩)
  guardrail _ _ := .inr (.inl nofun)

lemma reads_of_bound (happroved : Approved defs guarded scope block after)
    (hvar : var ∈ scope → frame.bindings.contains var = true) (hguard : guarded = true → frame.guard.isSome = true) :
    c.Reads block frame var := by
  have hframe := Frame.Covers.of_bound hvar hguard
  constructor
  · rintro calls bound ⟨e, frame', hyields, hfault⟩
    exact execBlock_spec (c.tolerates_succeeding calls defs var) bound happroved frame hframe _ _ hyields hfault
  · rintro calls bound ⟨e, frame', hyields, hfault⟩
    have hend : e.fault ≠ .value (.undefined var) ∨ calls.Raises e.fault :=
      execBlock_ends (c.tolerates_raised calls defs var) (fun _ => .inl) bound happroved frame hframe
        _ _ hyields
    rw [hfault] at hend
    exact hend.resolve_left fun h => h rfl

lemma reads_of_approved {globals : Table Json} (happroved : Approved defs guarded scope block after)
    (hframe : ∀ E, frame.Covers E guarded globals scope) (var : String) : c.Reads block frame var :=
  reads_of_bound happroved (hframe _).contains (hframe fun _ => True).guard

end Context

/-! ### Runs -/

namespace Scene

/-- A fault that is none of a missing variable, or one that a failure block may end in. -/
def Excuses (s : Scene) (fault : RunFault) : Prop :=
  fault.isUnbound = false ∨ ∃ n flow f block frame, s.unit.flows.get? flow = some f ∧
    f.onFailure = some block ∧ s.Raises (s.calls n) n block frame fault

variable {s : Scene} {defs : Definitions} {globals : Scope}

lemma loose_excuses (s : Scene) : RunFault.Loose s.Excuses := by
  intro fault hfault
  refine .inl ?_
  cases fault with
  | value e => cases hfault
  | _ => rfl

lemma admits_excuses (hlinked : s.unit.Linked defs globals)
    (hglobals : ∀ var ∈ globals, s.globals.contains var = true) : s.Admits s.Excuses defs globals where
  linked := hlinked
  ordinary _ _ h := .inl h
  guardrail _ _ := .inr (.inl rfl)
  bound := .inr hglobals
  failure hf hblock _ _ e frame' h := .inr ⟨_, _, _, _, _, hf, hblock, e, frame', h, rfl⟩

/-- Where the globals that the analysis counts on have values, no variable is missing in the body of a flow or
in a handler of texts, and a run misses one only if a failure block does. -/
theorem unbound_only_in_failure {config : CompilerConfig} {files : Files} {source name : String}
    {root : Program} {loaded : Loaded} {compiled : Compiled}
    (hroot : Program.ofSource source name = .ok root) (hloaded : root.load files = .ok loaded)
    (hcompiled : compile config files source name = .ok compiled) {s : Scene}
    (hunit : s.unit = compiled.unit)
    (hglobals : ∀ var ∈ Analysis.globals (root :: loaded.imports), s.globals.contains var = true)
    (var : String) :
    (∀ flow f args, s.unit.flows.get? flow = some f → (f.params.length = args.length ∨ f.params = []) →
      s.Reads f.body (s.flowFrame f args) var) ∧
    (∀ event block, s.unit.handler? event = some block → event ≠ .start → ∀ text,
      s.Reads block (s.handlerFrame event text) var) ∧
    ∀ n args entry, (Context.enter s n args entry).Raises (.value (.undefined var)) →
      ∃ m flow f block frame, s.unit.flows.get? flow = some f ∧ f.onFailure = some block ∧
        s.Raises (s.calls m) m block frame (.value (.undefined var)) := by
  obtain ⟨hclean, hlowers⟩ := lowers_of_compile hroot hloaded hcompiled
  have hlinked := hlowers.linked hclean
  rw [← hunit] at hlinked
  refine ⟨fun flow f args hf hargs => ?_, fun event block hblock hevent text => ?_,
    fun n args entry ⟨e, h, hfault⟩ => ?_⟩
  · obtain ⟨scope, after, happroved, hscope⟩ := hlinked.body hf
    exact Context.reads_of_approved happroved (fun _ => flowFrame_covers (.inr hglobals) hargs hscope) var
  · obtain ⟨scope, after, happroved, hscope⟩ := hlinked.handler hblock
    rw [bne_iff_ne.2 hevent] at happroved
    exact Context.reads_of_approved happroved
      (fun _ => handlerFrame_covers (.inr hglobals) (hscope hevent) event text) var
  · have hexcused := faults_enter (admits_excuses hlinked hglobals) (.inr s.loose_excuses) n e h
    rw [hfault] at hexcused
    exact hexcused.resolve_left nofun

def sample (u : CompiledUnit) : Scene := { unit := u, globals := [("n", .null)] }

theorem unbound_only_in_failure_sample : ∃ root loaded compiled f,
    Program.ofSource sampleSource "main" = .ok root ∧ root.load [] = .ok loaded ∧
    compile {} [] sampleSource "main" = .ok compiled ∧ (∀ var ∈ Analysis.globals (root :: loaded.imports),
      (sample compiled.unit).globals.contains var = true) ∧
    compiled.unit.flows.get? "main" = some f ∧ f.params.length = 1 ∧
    ∀ v, (sample compiled.unit).Reads f.body ((sample compiled.unit).flowFrame f [v]) "n" := by
  obtain ⟨root, loaded, compiled, f, h⟩ := exists_sample
  have hglobals : ∀ var ∈ Analysis.globals (root :: loaded.imports),
      (sample compiled.unit).globals.contains var = true := by
    rw [h.globals]
    exact List.forall_mem_singleton.2 rfl
  refine ⟨root, loaded, compiled, f, h.parses, h.loads, h.compiles, hglobals, h.flow, h.params, fun v => ?_⟩
  exact (unbound_only_in_failure h.parses h.loads h.compiles rfl hglobals "n").1 "main" f [v] h.flow
    (.inl h.params)

end Scene

end Workflow
