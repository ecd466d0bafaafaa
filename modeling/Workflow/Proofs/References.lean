import Workflow.Proofs.Requests
import Workflow.Proofs.Runs
import Workflow.Proofs.Sessions

/-!
Names in runs. A unit that a session gives out comes from a compilation, so that all its names are defined. A
run of such a unit never fails with an undefined name, a wrong number of arguments, a statement out of place or
an unknown guardrail.
-/

namespace Workflow

open Guardrails Context

/-! ### Guardrails of a context -/

namespace Guardrails

variable {config : GuardrailConfig} {known known' : Guardrails} {name : String}

lemma isSome_of_define (h : define config known spec = .ok known')
    (hname : spec.name = name ∨ (known.get? name).isSome) : (known'.get? name).isSome := by
  obtain ⟨pattern, -, h⟩ := Except.bind_eq_ok.1 h
  cases h
  rw [Table.get?_insert]
  split
  · rfl
  · next hne => exact hname.resolve_left hne

lemma isSome_of_defineAll : ∀ {specs : List GuardrailSpec} {known}, specs.foldlM (define config) known = .ok known' →
    (∃ spec ∈ specs, spec.name = name) ∨ (known.get? name).isSome → (known'.get? name).isSome
  | [], known, h, hname => by
    cases h
    exact hname.resolve_left fun ⟨_, hmem, _⟩ => nomatch hmem
  | spec :: specs, known, h, hname => by
    rw [List.foldlM_cons] at h
    obtain ⟨mid, hmid, h⟩ := Except.bind_eq_ok.1 h
    refine isSome_of_defineAll h ?_
    rcases hname with ⟨other, hother, heq⟩ | hname
    · rcases List.mem_cons.1 hother with rfl | hother
      · exact .inr (isSome_of_define hmid (.inl heq))
      · exact .inl ⟨other, hother, heq⟩
    · exact .inr (isSome_of_define hmid (.inr hname))

lemma isSome_of_builtin (h : builtin config = .ok known) (hname : name ∈ builtinGuardrails) :
    (known.get? name).isSome := by
  obtain ⟨patterns, -, h⟩ := Except.bind_eq_ok.1 h
  cases h
  simp only [builtinGuardrails, List.mem_cons, List.not_mem_nil, or_false] at hname
  rcases hname with rfl | rfl <;> simp [Table.ofList, Table.get?_insert]

lemma exists_builtin (config : GuardrailConfig) : ∃ known, builtin config = .ok known := by
  have hpatterns : (Guardrail.personalData.mapM (compile "pii")).isOk = true := by decide +kernel
  cases h : Guardrail.personalData.mapM (compile "pii") with
  | ok patterns => exact ⟨_, by rw [builtin, h]; rfl⟩
  | error e =>
    rw [h] at hpatterns
    cases hpatterns

lemma compile_known (name pattern : String) : Except.Avoids GuardrailError.unknown (compile name pattern) := by
  unfold compile
  split <;> exact nofun

lemma compileAll_known (name : String) : ∀ patterns : List String,
    Except.Avoids GuardrailError.unknown (patterns.mapM (compile name))
  | [] => nofun
  | pattern :: patterns => by
    rw [List.mapM_cons]
    refine (compile_known name pattern).bind fun _ => ?_
    exact (compileAll_known name patterns).bind fun _ => .ok _

lemma ofSpecs_known (config : GuardrailConfig) (specs : List GuardrailSpec) :
    Except.Avoids GuardrailError.unknown (ofSpecs config specs) := by
  refine ((compileAll_known "pii" _).bind fun _ => .ok _).bind fun known => ?_
  induction specs generalizing known with
  | nil => exact .ok known
  | cons spec specs ih =>
    rw [List.foldlM_cons]
    exact ((compile_known spec.name spec.pattern).bind fun _ => .ok _).bind ih

end Guardrails

namespace Context

variable {u : CompiledUnit} {settings : Settings} {config : GuardrailConfig} {registry : Registry} {c : Context}

lemma ofUnit_eq_ok (h : ofUnit u settings config registry = .ok c) :
    c.unit = u ∧ ofSpecs config (u.guardrails.map (·.2)) = .ok c.guardrails := by
  obtain ⟨guardrails, hguardrails, h⟩ := Except.bind_eq_ok.1 h
  obtain ⟨_, -, h⟩ := Except.bind_eq_ok.1 h
  cases h
  refine ⟨rfl, ?_⟩
  cases hspecs : ofSpecs config (u.guardrails.map (·.2)) with
  | ok known =>
    rw [hspecs] at hguardrails
    cases hguardrails
    rfl
  | error e =>
    rw [hspecs] at hguardrails
    cases hguardrails

lemma ofUnit_eq_error {fault : RunFault} (h : ofUnit u settings config registry = .error fault) :
    fault.isReference = false := by
  unfold ofUnit at h
  cases hspecs : ofSpecs config (u.guardrails.map (·.2)) with
  | ok known =>
    rw [hspecs] at h
    cases hschemas : u.schemas.forM fun entry => entry.2.usable with
    | ok _ =>
      rw [hschemas] at h
      cases h
    | error e =>
      rw [hschemas] at h
      cases h
      rfl
  | error e =>
    rw [hspecs] at h
    cases h
    cases e with
    | unknown name => exact absurd hspecs (ofSpecs_known config _ name)
    | invalidPattern name reason => rfl

lemma exists_ofUnit (hguardrails : u.guardrails = []) (hschemas : u.schemas = [])
    (settings : Settings) (config : GuardrailConfig) (registry : Registry) :
    ∃ c, ofUnit u settings config registry = .ok c := by
  obtain ⟨known, hknown⟩ := exists_builtin config
  refine ⟨{ unit := u, settings := settings, guardrails := known, registry := registry }, ?_⟩
  rw [ofUnit, hguardrails, hschemas, ofSpecs, hknown]
  rfl

lemma isSome_guardrail {defs : Definitions} {globals : Scope}
    (h : ofUnit u settings config registry = .ok c) (hu : u.Linked defs globals) {name : String}
    (hname : defs.KnowsGuardrail name) : (c.guardrails.get? name).isSome := by
  obtain ⟨known, hknown, hspecs⟩ := Except.bind_eq_ok.1 (ofUnit_eq_ok h).2
  refine isSome_of_defineAll hspecs ?_
  rcases hname with hname | hname
  · exact .inr (isSome_of_builtin hknown hname)
  · exact .inl (hu.guardrail hname)

end Context

/-! ### Runs -/

namespace Scene

variable {s : Scene} {defs : Definitions} {globals : Scope}

lemma admits_named (hlinked : s.unit.Linked defs globals)
    (hguardrail : ∀ name, defs.KnowsGuardrail name → (s.guardrails.get? name).isSome) :
    s.Admits (·.isReference = false) defs globals where
  linked := hlinked
  ordinary _ h _ := h
  guardrail name hname := .inl (hguardrail name hname)
  bound := .inl fun _ => rfl
  failure hf hblock hcalls frame _ _ h := by
    obtain ⟨scope, after, happroved⟩ := hlinked.failure hf _ hblock
    exact execBlock_spec hcalls _ happroved frame ⟨fun _ _ => .inl rfl, rfl, nofun⟩ _ _ h

end Scene

namespace Context

variable {c : Context} {defs : Definitions} {globals : Scope}

lemma faults_start (hlinked : c.unit.Linked defs globals)
    (hguardrail : ∀ name, defs.KnowsGuardrail name → (c.guardrails.get? name).isSome) (n : Nat)
    (input : Json) : Act.Faults (·.isReference = false) (c.start n input) := by
  unfold start
  split
  · exact Act.faults_pure _
  · next block hblock =>
    obtain ⟨scope, after, happroved, -⟩ := hlinked.handler hblock
    have hadmits : Scene.Admits (·.isReference = false) { c with globals := [] } defs globals :=
      Scene.admits_named hlinked hguardrail
    refine (Act.faults_lift _).bind fun (outcome, frame) hresult => ?_
    have hend := execBlock_spec (hadmits.tolerates n) n happroved _ ⟨fun _ _ => .inl rfl, rfl, nofun⟩
      outcome frame (Act.yields_of_lift hresult)
    cases outcome with
    | ok control => exact Act.faults_pure _
    | error e => exact Act.faults_throw hend

lemma faults_process (hlinked : c.unit.Linked defs globals)
    (hguardrail : ∀ name, defs.KnowsGuardrail name → (c.guardrails.get? name).isSome) {entry : Entry}
    {args : List Json} (hentry : c.unit.Has args.length entry) (n : Nat) :
    Act.Faults (·.isReference = false) (c.process n entry args) := by
  refine (faults_start hlinked hguardrail n _).bind fun globals _ e h => ?_
  obtain ⟨outcome, houtcome, h⟩ := Process.Yields.of_bind h
  obtain ⟨_, -, h⟩ := Process.Yields.of_bind h
  cases h
  have hadmits := @Scene.admits_named { c with globals := globals } _ _ hlinked hguardrail
  exact Scene.faults_enter hadmits (.inl hentry) n e houtcome

end Context

/-! ### Sessions -/

namespace Session

/-- The sessions that compiling and clearing lead to, from any settings and source maps. -/
inductive Reachable : Session → Prop where
  | new (config : CompilerConfig) (registry : Registry) : Reachable { config := config, registry := registry }
  | compile {s} (before : Reachable s) (files : Files) (source name : String) :
      Reachable (s.compile files source name).1
  | clear {s} (before : Reachable s) : Reachable s.clear

def Stems (c : Compiled) : Prop :=
  ∃ config files source name, Workflow.compile config files source name = .ok c

/-- All units of a session come from a compilation. -/
def Sound (s : Session) : Prop := s.All fun _ cached => Stems cached.compiled

variable {s : Session} {files : Files} {source name key : String}

lemma Sound.compile (h : s.Sound) (files : Files) (source name : String) : (s.compile files source name).1.Sound ∧
      ∀ cached, (s.compile files source name).2 = .ok cached → Stems cached.compiled := by
  refine ⟨All.compile h fun cached hcached => ⟨_, _, _, _, hcached⟩, fun cached hcached => ?_⟩
  rcases s.compile_cases files source name with ⟨kept, hunit, -, heq⟩ | ⟨hstale, -⟩
  · rw [heq] at hcached
    cases hcached
    exact All.unit? h hunit
  · refine ⟨_, _, _, _, (compile_of_stale hstale).symm.trans ?_⟩
    rw [hcached]
    rfl

lemma Reachable.sound (h : s.Reachable) : s.Sound := by
  induction h with
  | new config registry | clear _ ih => exact nofun
  | compile _ files source name ih => exact (ih.compile files source name).1

end Session

/-- No run of a unit that a session gives out ends in an undefined name, a wrong number of arguments, a
statement out of place or an unknown guardrail, as long as its entry is there. -/
theorem run_resolves_names {session : Session} (hsession : session.Reachable) {files : Files}
    {source name : String} {cached : Cached}
    (hcached : (session.compile files source name).2 = .ok cached) (settings : Settings)
    (config : GuardrailConfig) (registry : Registry) :
    (∀ fault, ofUnit cached.compiled.unit settings config registry = .error fault → fault.isReference = false) ∧
    ∀ context, ofUnit cached.compiled.unit settings config registry = .ok context →
      ∀ entry args, cached.compiled.unit.Has args.length entry →
      ∀ {σ : Type} (client : Client σ) (state : σ) (fuel : Nat) (e : RunError),
      (context.run client state fuel entry args).outcome = some (.error e) →
      e.fault.isReference = false := by
  obtain ⟨compiler, files', source', name', hcompiled⟩ :=
    (hsession.sound.compile files source name).2 cached hcached
  obtain ⟨root, loaded, hroot, hloaded⟩ := exists_of_compile hcompiled
  obtain ⟨hclean, hlowers⟩ := lowers_of_compile hroot hloaded hcompiled
  have hlinked := hlowers.linked hclean
  refine ⟨fun fault => ofUnit_eq_error, fun context hcontext entry args hentry σ client state fuel e he => ?_⟩
  obtain ⟨hunit, -⟩ := ofUnit_eq_ok hcontext
  have hguardrail := fun name => @isSome_guardrail _ _ _ _ _ _ _ hcontext hlinked name
  rw [← hunit] at hlinked hentry
  exact faults_process hlinked hguardrail hentry fuel e (Machine.yields_of_run he)

theorem run_resolves_names_sample : ∃ cached context, (Session.compile {} [] sampleSource "main").2 = .ok cached ∧
    ofUnit cached.compiled.unit {} {} [] = .ok context ∧
    cached.compiled.unit.Has 1 (.flow "main") ∧
    ∀ (v : Json) {σ : Type} (client : Client σ) (state : σ) (fuel : Nat) (e : RunError),
      (context.run client state fuel (.flow "main") [v]).outcome = some (.error e) →
      e.fault.isReference = false := by
  obtain ⟨root, loaded, compiled, f, h⟩ := exists_sample
  have hcached := Session.compile_new h.compiles
  have hentry : compiled.unit.Has 1 (.flow "main") := ⟨f, h.flow, .inl h.params⟩
  obtain ⟨context, hcontext⟩ := exists_ofUnit h.guardrails h.schemas {} {} []
  refine ⟨_, context, hcached, hcontext, hentry, fun v σ client state fuel e he => ?_⟩
  exact (run_resolves_names (.new {} []) hcached {} {} []).2 context hcontext (.flow "main") [v] hentry
    client state fuel e he

end Workflow
