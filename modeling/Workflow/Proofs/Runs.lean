import Workflow.Proofs.Agents
import Workflow.Proofs.Machine

/-!
Faults of runs. By induction on how deep flows and handlers call each other, what one block may fail with is all
that they may fail with. The kind `E` of faults has to have the faults of models, answers and limits, and what a
failure block ends in.
-/

namespace Workflow

open Act Context

variable {name : String} {f : FlowUnit} {args : List Json} {n : Nat}

namespace Bindings

lemma contains_foldl_set : ∀ {entries : List (String × Json)} {b : Bindings},
    name ∈ entries.map Prod.fst ∨ b.contains name = true →
    (entries.foldl (fun b e => b.set e.1 e.2) b).contains name = true
  | [], _, h => h.resolve_left List.not_mem_nil
  | (key, v) :: rest, b, h => by
    rw [List.foldl_cons]
    refine contains_foldl_set ?_
    rw [contains_set, Bool.or_eq_true, decide_eq_true_eq]
    rcases h with h | h
    · rcases List.mem_cons.1 h with rfl | h
      · exact .inr (.inl rfl)
      · exact .inl h
    · exact .inr (.inr h)

lemma globals_foldl_set : ∀ (entries : List (String × Json)) (b : Bindings),
    (entries.foldl (fun b e => b.set e.1 e.2) b).globals = b.globals
  | [], _ => rfl
  | (key, v) :: rest, b => globals_foldl_set rest (b.set key v)

end Bindings

namespace Scene

/-- What a kind of faults has to have in a scene whose unit fits together. -/
structure Admits (E : RunFault → Prop) (s : Scene) (defs : Definitions) (globals : Scope) : Prop where
  linked : s.unit.Linked defs globals
  ordinary : RunFault.Ordinary E
  guardrail : ∀ name, defs.KnowsGuardrail name → (s.guardrails.get? name).isSome ∨ E (.guardrail (.unknown name))
  bound : (∀ var, E (.value (.undefined var))) ∨ ∀ var ∈ globals, s.globals.contains var = true
  failure : ∀ {n name f block}, s.unit.flows.get? name = some f → f.onFailure = some block →
    Tolerates E s.toContext (s.calls n) defs → ∀ {frame e frame'},
    ((s.execBlock (s.calls n) n block).run.run frame).Yields (.error e, frame') → E e.fault

variable {E : RunFault → Prop} {s : Scene} {calls : Calls} {defs : Definitions} {globals scope : Scope}

/-! ### Frames at the start of a body -/

lemma contains_frame (hvar : s.globals.contains var = true ∨ var = "input") (input : Json) :
    (s.frame input).bindings.contains var = true := by
  unfold Bindings.contains Bindings.get?
  split
  · rfl
  · next hnone =>
    refine hvar.resolve_right ?_
    rintro rfl
    cases hnone

lemma contains_flowFrame (hargs : f.params.length = args.length ∨ f.params = [])
    (hvar : s.globals.contains var = true ∨ var = "input" ∨ var ∈ f.params) :
    (s.flowFrame f args).bindings.contains var = true := by
  refine Bindings.contains_foldl_set ?_
  rw [List.map_fst_zip (by rcases hargs with h | h <;> simp [h])]
  rcases hvar with hvar | hvar | hvar
  · exact .inr (contains_frame (.inl hvar) _)
  · exact .inr (contains_frame (.inr hvar) _)
  · exact .inl hvar

lemma handlerFrame_covers
    (hbound : (∀ var, E (.value (.undefined var))) ∨ ∀ var ∈ globals, s.globals.contains var = true)
    (hscope : ∀ var ∈ scope, var ∈ globals ∨ var = "input") (event : HandlerEvent) (text : String) :
    (s.handlerFrame event text).Covers E true s.globals scope := by
  refine ⟨fun var hvar => hbound.imp (fun h => h var) fun hglobals => ?_, rfl, fun _ => rfl⟩
  exact contains_frame ((hscope var hvar).imp_left (hglobals var)) _

lemma flowFrame_covers
    (hbound : (∀ var, E (.value (.undefined var))) ∨ ∀ var ∈ globals, s.globals.contains var = true)
    (hargs : f.params.length = args.length ∨ f.params = [])
    (hscope : ∀ var ∈ scope, var ∈ globals ∨ var = "input" ∨ var ∈ f.params) :
    (s.flowFrame f args).Covers E false s.globals scope := by
  refine ⟨fun var hvar => hbound.imp (fun h => h var) fun hglobals => ?_, Bindings.globals_foldl_set _ _, nofun⟩
  exact contains_flowFrame hargs ((hscope var hvar).imp_left (hglobals var))

/-! ### Handlers and flows -/

lemma faults_pass (h : s.Admits E defs globals) (hcalls : Tolerates E s.toContext calls defs) (bound : Nat)
    (hevent : event ≠ .start) (text : String) : Act.Faults E (s.pass calls bound event text) := by
  unfold pass
  split
  · exact faults_pure _
  · next block hblock =>
    obtain ⟨scope, after, happroved, hscope⟩ := h.linked.handler hblock
    rw [bne_iff_ne.2 hevent] at happroved
    have hspec := execBlock_spec hcalls bound happroved (s.handlerFrame event text)
      (handlerFrame_covers h.bound (hscope hevent) event text)
    refine (faults_lift _).bind fun (outcome, frame) hresult => ?_
    have hend := hspec outcome frame (yields_of_lift hresult)
    cases outcome with
    | ok control =>
      obtain ⟨guarded, hguarded⟩ := Option.isSome_iff_exists.1 (hend.1.guard rfl)
      dsimp only
      rw [hguarded]
      exact faults_pure guarded
    | error e => exact faults_throw hend

lemma faults_runBody (h : s.Admits E defs globals) (hcalls : Tolerates E s.toContext (s.calls n) defs)
    (hf : s.unit.flows.get? name = some f) (hargs : f.params.length = args.length ∨ f.params = []) :
    Act.Faults E (s.runBody (s.calls n) n f args) := by
  obtain ⟨scope, after, happroved, hscope⟩ := h.linked.body hf
  have hspec := execBlock_spec hcalls n happroved (s.flowFrame f args) (flowFrame_covers h.bound hargs hscope)
  refine (faults_lift _).bind fun (outcome, frame) hresult => ?_
  have hend := hspec outcome frame (yields_of_lift hresult)
  cases outcome with
  | ok control => exact faults_pure _
  | error e =>
    dsimp only
    split
    · next block hblock _ =>
      refine (faults_lift _).bind fun _ _ => (faults_lift _).bind fun (outcome, frame) hresult => ?_
      cases outcome with
      | ok control => exact faults_pure _
      | error e => exact faults_throw (h.failure hf hblock hcalls (yields_of_lift hresult))
    · exact faults_throw hend

lemma faults_runFlow (h : s.Admits E defs globals) (hcalls : Tolerates E s.toContext (s.calls n) defs)
    (hname : s.unit.Takes name args.length ∨ RunFault.Loose E) :
    Act.Faults E (s.runFlow (s.calls n) n name args) := by
  refine ofExcept_bind (fun hfault => faults_fail ?_) fun {f} hf => ?_
  · exact fault_of_entry (hname.imp (fun ⟨f, hf, _⟩ => ⟨f, hf⟩) fun hE => hE _ rfl) hfault
  replace hf := get?_of_entry hf
  dsimp only
  split
  · next hwrong =>
    refine faults_fail (hname.elim (fun ⟨f', hf', hargs⟩ => ?_) fun hE => hE _ rfl)
    cases hf.symm.trans hf'
    simp only [Bool.and_eq_true, Bool.not_eq_true', List.isEmpty_eq_false_iff, decide_eq_true_eq] at hwrong
    exact absurd hargs (not_or.2 ⟨hwrong.2, hwrong.1⟩)
  · next hright =>
    have hargs : f.params.length = args.length ∨ f.params = [] := by
      simp only [Bool.and_eq_true, Bool.not_eq_true', List.isEmpty_eq_false_iff, decide_eq_true_eq,
        not_and_or, not_not] at hright
      exact hright.symm
    refine (faults_lift _).bind fun _ _ => (faults_runBody h hcalls hf hargs).bind fun v _ => ?_
    exact (faults_lift _).bind fun _ _ => faults_pure v

/-! ### Runs -/

lemma tolerates_calls (h : s.Admits E defs globals) (hguard : Guard.Safe E (s.guardText n))
    (hflow : ∀ name args, s.unit.Takes name args.length → Act.Faults E (s.callFlow n name args)) :
    Tolerates E s.toContext (s.calls n) defs where
  ordinary := h.ordinary
  agent _ args bindings hname :=
    faults_runAgent h.linked h.ordinary hguard (.inl (h.linked.agent hname)) args bindings
  prompt _ args _ bindings hname hmodel :=
    faults_callPrompt h.linked h.ordinary hguard (.inl (h.linked.prompt hname))
      (fun m hm => .inl (h.linked.model (hmodel m hm))) args bindings
  flow name args hname := hflow name args (h.linked.flow hname)
  guardrail := h.guardrail

lemma faults_calls (h : s.Admits E defs globals) : ∀ n, Guard.Safe E (s.guardText n) ∧
    ∀ name args, s.unit.Takes name args.length ∨ RunFault.Loose E → Act.Faults E (s.callFlow n name args)
  | 0 => ⟨fun _ _ _ => faults_stuck, fun _ _ _ => faults_stuck⟩
  | n + 1 => by
    obtain ⟨hguard, hflow⟩ := faults_calls h n
    have hcalls := tolerates_calls h hguard fun name args hname => hflow name args (.inl hname)
    refine ⟨fun event text hevent => ?_, fun name args hname => ?_⟩
    · rw [guardText]
      exact faults_pass h hcalls n hevent text
    · rw [callFlow]
      exact faults_runFlow h hcalls hname

lemma Admits.tolerates (h : s.Admits E defs globals) (n : Nat) : Tolerates E s.toContext (s.calls n) defs :=
  tolerates_calls h (faults_calls h n).1 fun name args hname =>
    (faults_calls h n).2 name args (.inl hname)

end Scene

/-- A unit has an entry: a flow that takes so many arguments, an agent, or a prompt and the model that is asked
for. -/
def CompiledUnit.Has (u : CompiledUnit) (given : Nat) : Entry → Prop
  | .flow name => u.Takes name given
  | .agent name => ∃ a, u.agents.get? name = some a
  | .prompt name model => (∃ p, u.prompts.get? name = some p) ∧ ∀ m ∈ model, ∃ spec, u.models.get? m = some spec

namespace Scene

variable {E : RunFault → Prop} {s : Scene} {defs : Definitions} {globals : Scope}

lemma faults_enter (h : s.Admits E defs globals) {entry : Entry}
    (hentry : s.unit.Has args.length entry ∨ RunFault.Loose E) (n : Nat) :
    Act.Faults E (enter s n args entry) := by
  obtain ⟨hguard, hflow⟩ := faults_calls h n
  cases entry with
  | flow name => exact (hflow name args hentry).bind fun v _ => faults_pure _
  | agent name =>
    exact faults_runAgent h.linked h.ordinary hguard (hentry.imp_right fun hE => hE _ rfl) args []
  | prompt name model =>
    exact faults_callPrompt h.linked h.ordinary hguard (hentry.imp And.left fun hE => hE _ rfl)
      (fun m hm => hentry.imp (fun hthere => hthere.2 m hm) fun hE => hE _ rfl) args []

end Scene

end Workflow
