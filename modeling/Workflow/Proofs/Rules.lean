import Workflow.Proofs.Branching
import Workflow.Proofs.Stepwise

/-!
Rules for runs. `Composable c P Q` says that a property `P` of processes that may fail, and a property `Q` of
processes in a frame, are kept by each way in which a run is put together. Then they hold of all that a run
consists of, if they hold of prompts and agents (`Answering c P`), which follows if `P` holds of every single
request (`Rules c P Q`).
-/

namespace Workflow

open Exec Process

variable {calls : Calls}

/-- A process in a frame that is done at once. Its error, if it fails, knows of no statement. -/
def Exec.Instant {α : Type} (x : Exec α) : Prop :=
  ∀ frame, ∃ r frame', x.run.run frame = .done (r, frame') ∧ ∀ e, r = .error e → e.site = none

/-- A process in a frame that is done at once and does not fail. -/
def Exec.Succeeds {α : Type} (x : Exec α) : Prop :=
  ∀ frame, ∃ a frame', x.run.run frame = .done (.ok a, frame')

/-- Properties of processes, as such and in a frame, with a rule for each way in which a run is put
together. -/
structure Composable (c : Context) (P : {α : Type} → Act α → Prop) (Q : {α : Type} → Exec α → Prop) : Prop where
  value : ∀ {α : Type} (a : α), P (pure a)
  fault : ∀ {α : Type} (fault : RunFault), P (Act.fail fault : Act α)
  stuck : ∀ {α : Type}, P (Act.stuck : Act α)
  chain : ∀ {α β : Type} {x : Act α} {k : α → Act β}, P x → (∀ a, P (k a)) → P (x >>= k)
  event : ∀ {e : Event}, e.isClosing = false → P (liftM (emit e))
  built : ∀ {name : String} {h : Hierarchy}, Hierarchy.build? c.unit.agents name = some h →
    P (liftM (note (.built name)))
  wait : ∀ time : Duration, P (liftM (wait time))
  limited : ∀ (agent : String) (limit : Duration) {body : Act Answer}, P body →
    P (Context.limited agent (some limit) body)
  instant : ∀ {α : Type} {x : Exec α}, x.Instant → Q x
  next : ∀ {α β : Type} {x : Exec α} {k : α → Exec β}, Q x → (∀ a, Q (k a)) → Q (x >>= k)
  report : ∀ {e : Event}, e.isClosing = false → Q (liftM (emit e))
  pause : Q (liftM pause)
  call : ∀ {α : Type} {x : Act α}, P x → Q (ofAct x)
  located : ∀ {α : Type} {x : Exec α} (i : Instr), Q x → Q (located i (c.site i.line) x)
  lastly : ∀ {α : Type} {x : Exec α} {last : Exec Unit}, Q x → last.Succeeds → Q (lastly x last)
  branches : ∀ {α : Type} {ps : List (Process Outcome)} {k : Except RunError (List Answer) → Exec α},
    (∀ p ∈ ps, P (ExceptT.mk p)) → (∀ answers, Q (k (.ok answers))) → (∀ e, k (.error e) = throw e) →
    Q ((liftM (branches ps) : Exec _) >>= k)
  block : ∀ {α β : Type} {x : Exec α} {k : Except RunError α × Frame → Act β} (frame : Frame), Q x →
    (∀ a frame, P (k (.ok a, frame))) → (∀ e frame, k (.error e, frame) = throw e) →
    P ((liftM (x.run.run frame) : Act _) >>= k)
  body : ∀ {s : Scene} {calls : Calls} {bound : Nat} {f : FlowUnit} (args : List Json),
    s.toContext = c → Q (s.execBlock calls bound f.body) →
    (∀ block ∈ f.onFailure, Q (s.execBlock calls bound block)) → P (s.runBody calls bound f args)

/-- What is more, every request has the property. -/
structure Rules (c : Context) (P : {α : Type} → Act α → Prop) (Q : {α : Type} → Exec α → Prop) : Prop
    extends Composable c P Q where
  request : ∀ r : Request, P (liftM (request r))

/-- Prompts and agents have a property if the handlers do. -/
structure Answering (c : Context) (P : {α : Type} → Act α → Prop) : Prop where
  agent : ∀ {guard : Guard}, (∀ event text, P (guard event text)) → ∀ name args bindings,
    P (c.runAgent guard name args bindings)
  prompt : ∀ {guard : Guard}, (∀ event text, P (guard event text)) → ∀ name args model bindings,
    P (c.callPrompt guard name args model bindings)

namespace Exec

variable {α β : Type}

lemma instant_pure (a : α) : Instant (pure a) := fun frame => ⟨.ok a, frame, rfl, nofun⟩

lemma instant_fail (fault : RunFault) : Instant (fail fault : Exec α) := by
  intro frame
  refine ⟨.error { fault := fault }, frame, rfl, fun e he => ?_⟩
  cases he
  rfl

lemma instant_bind (hx : Instant x) (hk : ∀ a, Instant (k a)) : Instant (x >>= k) := by
  intro frame
  obtain ⟨r, frame', hdone, hlocated⟩ := hx frame
  cases r with
  | ok a =>
    rw [run_bind_ok hdone]
    exact hk a frame'
  | error e =>
    refine ⟨.error e, frame', run_bind_error hdone, fun e' he => hlocated e' ?_⟩
    cases he
    rfl

lemma instant_get : Instant get := fun frame => ⟨.ok frame, frame, rfl, nofun⟩

lemma instant_set (frame : Frame) : Instant (set frame) := fun _ => ⟨.ok (), frame, rfl, nofun⟩

lemma instant_modify (g : Frame → Frame) : Instant (modify g) := fun frame => ⟨.ok (), g frame, rfl, nofun⟩

lemma instant_eval (t : Term) : Instant (eval t) := by
  intro frame
  refine ⟨_, frame, run_eval t frame, fun e he => ?_⟩
  cases hv : t.eval frame.bindings with
  | ok v =>
    rw [hv] at he
    cases he
  | error v =>
    rw [hv] at he
    cases he
    rfl

lemma instant_change (g : Bindings → Bindings × Except ValueError Unit) : Instant (change g) := by
  refine instant_bind instant_get fun frame => instant_bind (instant_set _) fun _ => ?_
  split
  · exact instant_pure ()
  · exact instant_fail _

lemma succeeds_change {g : Bindings → Bindings} : (change fun b => (g b, .ok ())).Succeeds :=
  fun frame => ⟨(), { frame with bindings := g frame.bindings }, rfl⟩

end Exec

/-- What statements call has the property of processes that may fail. -/
structure Called (P : {α : Type} → Act α → Prop) (calls : Calls) : Prop where
  agent : ∀ name args bindings, P (calls.agent name args bindings)
  prompt : ∀ name args model bindings, P (calls.prompt name args model bindings)
  flow : ∀ name args, P (calls.flow name args)

lemma Answering.callsOf {P : {α : Type} → Act α → Prop} (h : Answering c P) {guard : Guard}
    (hguard : ∀ event text, P (guard event text)) (hflow : ∀ name args, P (flow name args)) :
    Called P (Calls.of c guard flow) :=
  ⟨h.agent hguard, h.prompt hguard, hflow⟩

namespace Composable

variable {c : Context} {P : {α : Type} → Act α → Prop} {Q : {α : Type} → Exec α → Prop} {guard : Guard}

/-! ### Statements -/

section Statements

variable (h : Composable c P Q)

include h

lemma eachItem (var : String) {body : Exec Control} (hbody : Q body) (items : List Json) :
    Q (eachItem var body items) := by
  induction items with
  | nil => exact h.instant (instant_pure _)
  | cons v rest ih =>
    refine h.next h.pause fun _ => h.next (h.instant (instant_change _)) fun _ => h.next hbody fun control => ?_
    cases control with
    | ret v => exact h.instant (instant_pure _)
    | _ => exact ih

lemma forEach (var : String) (iterable : Term) {body : Exec Control} (hbody : Q body) :
    Q (forEach var iterable body) := by
  refine h.next (h.instant (instant_eval iterable)) fun v => ?_
  cases v with
  | arr items =>
    refine h.next (h.instant instant_get) fun frame => h.next (h.instant (instant_change _)) fun _ => ?_
    exact h.lastly (h.eachItem var hbody items) succeeds_change
  | _ => exact h.instant (instant_fail _)

lemma ofExcept {α : Type} (x : Except RunFault α) : P (Act.ofExcept x) := by
  cases x with
  | ok a => exact h.value a
  | error fault => exact h.fault fault

lemma stepwise (hcalls : Called P calls) : Stepwise c calls Q where
  done a := h.instant (instant_pure a)
  fail fault := h.instant (instant_fail fault)
  next := h.next
  frame := h.instant instant_get
  eval t := h.instant (instant_eval t)
  assign _ _ := h.instant (instant_change _)
  setPath _ _ _ := h.instant (instant_change _)
  push _ _ := h.instant (instant_change _)
  guard _ := h.instant (instant_modify _)
  forEach := h.forEach
  pause := h.pause
  report := h.report
  stuck := h.call h.stuck
  ofExcept x := h.call (h.ofExcept x)
  agent _ _ _ := h.call (hcalls.agent _ _ _)
  prompt _ _ _ _ := h.call (hcalls.prompt _ _ _ _)
  flow _ _ := h.call (hcalls.flow _ _)
  located := h.located
  branches hps := h.branches fun p hp => by
    obtain ⟨name, args, bindings, rfl⟩ := hps p hp
    exact hcalls.agent name args bindings

lemma execBlock (hcalls : Called P calls) (bound : Nat) (is : List Instr) :
    Q (c.execBlock calls bound is) := (h.stepwise hcalls).execBlock bound is

end Statements

lemma talking (h : Composable c P Q) : Talking P := ⟨h.value, fun _ _ => h.fault _, h.chain, h.event⟩

/-! ### Handlers and flows -/

section Scenes

variable {s : Scene} (h : Composable s.toContext P Q) (ha : Answering s.toContext P)

include h

lemma pass (hcalls : Called P calls) (bound : Nat) (event : HandlerEvent) (text : String) :
    P (s.pass calls bound event text) := by
  unfold Scene.pass
  split
  · exact h.value _
  · refine h.block _ (h.execBlock hcalls bound _) (fun control frame => ?_) fun _ _ => rfl
    dsimp only
    split
    · exact h.value _
    · exact h.fault _

lemma runFlow (hcalls : Called P calls) (bound : Nat) (name : String) (args : List Json) :
    P (s.runFlow calls bound name args) := by
  refine h.chain (h.ofExcept _) fun f => ?_
  have hbody := h.body args rfl (h.execBlock hcalls bound f.body) fun block _ => h.execBlock hcalls bound block
  dsimp only
  split
  · exact h.fault _
  · exact h.chain (h.event rfl) fun _ => h.chain hbody fun v => h.chain (h.event rfl) fun _ => h.value v

include ha

lemma scene (fuel : Nat) : (∀ event text, P (s.guardText fuel event text)) ∧
    ∀ name args, P (s.callFlow fuel name args) := by
  induction fuel with
  | zero => exact ⟨fun _ _ => h.stuck, fun _ _ => h.stuck⟩
  | succ fuel ih =>
    have hcalls := ha.callsOf ih.1 ih.2
    refine ⟨fun event text => ?_, fun name args => ?_⟩
    · rw [Scene.guardText]
      exact h.pass hcalls fuel event text
    · rw [Scene.callFlow]
      exact h.runFlow hcalls fuel name args

lemma called (fuel : Nat) : Called P (s.calls fuel) := ha.callsOf (h.scene ha fuel).1 (h.scene ha fuel).2

lemma enter (fuel : Nat) (args : List Json) (entry : Entry) : P (Context.enter s fuel args entry) := by
  obtain ⟨hguard, hflow⟩ := h.scene ha fuel
  cases entry with
  | flow name => exact h.chain (hflow name args) fun v => h.value _
  | agent name => exact ha.agent hguard name args []
  | prompt name model => exact ha.prompt hguard name args model []

end Scenes

lemma start (h : Composable c P Q) (ha : Answering c P) (fuel : Nat) (input : Json) : P (c.start fuel input) := by
  unfold Context.start
  split
  · exact h.value _
  · have hscene : Composable (Scene.toContext { c with globals := [] }) P Q := h
    have hanswering : Answering (Scene.toContext { c with globals := [] }) P := ha
    refine h.block _ (hscene.execBlock (hscene.called hanswering fuel) fuel _) (fun control frame => ?_) fun _ _ => rfl
    exact h.value _

end Composable

namespace Rules

variable {c : Context} {P : {α : Type} → Act α → Prop} {Q : {α : Type} → Exec α → Prop}

lemma asking (h : Rules c P Q) : Asking c P where
  toTalking := h.talking
  request _ _ _ := h.request _
  wait := h.wait
  limited := h.limited
  built := h.built
  instruction _ _ _ := h.fault _
  model _ _ _ := h.fault _
  schema _ _ _ := h.fault _

lemma answering (h : Rules c P Q) : Answering c P where
  agent hguard _ := h.asking.runAgent (fun event text _ => hguard event text) fun _ => h.fault _
  prompt hguard _ args _ := h.asking.callPrompt (fun event text _ => hguard event text) (fun _ => h.fault _)
    (fun _ _ _ => h.fault _) args

lemma enter {s : Scene} (h : Rules s.toContext P Q) (fuel : Nat) (args : List Json) (entry : Entry) :
    P (Context.enter s fuel args entry) := h.toComposable.enter h.answering fuel args entry

lemma start (h : Rules c P Q) (fuel : Nat) (input : Json) : P (c.start fuel input) :=
  h.toComposable.start h.answering fuel input

end Rules

end Workflow
