import Workflow.Proofs.Rules

/-!
What processes note down. `Process.Tells` says that all notes of a process are of a kind, whatever the course of
events. The parts of a run are quiet: they report no agent as closed and tear nothing down.
`Process.Closed.composable` is about all properties of processes that are kept when they are put together.
-/

namespace Workflow

open Process

/-- A note of a run that is not at its end: it closes no agent, and what is laid out is the hierarchy of one of
the agents. -/
def Note.Ordinary (agents : Table AgentSpec) : Note → Prop
  | event e => e.isClosing = false
  | built agent => ∃ h, Hierarchy.build? agents agent = some h
  | teardown => False
  | failed _ _ => True
  | recovered _ => True

namespace Process

variable {α β : Type} {N : Note → Prop}

def Tells (N : Note → Prop) : {α : Type} → Process α → Prop
  | _, done _ => True
  | _, stuck => True
  | _, tell notes next => (∀ n ∈ notes, N n) ∧ (next ()).Tells N
  | _, ask _ next => ∀ reply, (next reply).Tells N
  | _, sleep _ next => (next ()).Tells N
  | _, within _ body next => body.Tells N ∧ ∀ o, (next o).Tells N
  | _, parallel _ branch next => (∀ i, (branch i).Tells N) ∧ ∀ r, (next r).Tells N

lemma Tells.bind {f : α → Process β} {p : Process α} (hp : p.Tells N) (hf : ∀ a, (f a).Tells N) :
    (p >>= f).Tells N := by
  induction p with
  | done a => exact hf a
  | stuck => trivial
  | tell notes next ih => exact ⟨hp.1, ih () hp.2 hf⟩
  | ask request next ih => exact fun reply => ih reply (hp reply) hf
  | sleep time next ih => exact ih () hp hf
  | within limit body next _ ih => exact ⟨hp.1, fun o => ih o (hp.2 o) hf⟩
  | parallel count branch next _ ih => exact ⟨hp.1, fun r => ih r (hp.2 r) hf⟩

lemma tells_note {n : Note} (h : N n) : (note n).Tells N :=
  ⟨fun _ hn => List.mem_singleton.1 hn ▸ h, trivial⟩

lemma tells_branches {ps : List (Process Outcome)} (h : ∀ p ∈ ps, p.Tells N) : (branches ps).Tells N :=
  ⟨fun i => h _ (List.get_mem ps i), fun _ => trivial⟩

end Process

/-! ### Properties of processes that are kept when they are put together -/

/-- A property of processes that is kept when they are put together, whatever comes of them. -/
structure Process.Closed (agents : Table AgentSpec) (T : {α : Type} → Process α → Prop) : Prop where
  done : ∀ {α : Type} (a : α), T (done a)
  stuck : ∀ {α : Type}, T (stuck : Process α)
  bind : ∀ {α β : Type} {p : Process α} {f : α → Process β}, T p → (∀ a, T (f a)) → T (p >>= f)
  note : ∀ {n : Note}, n.Ordinary agents → T (note n)
  pause : T pause
  wait : ∀ time : Duration, T (wait time)
  within : ∀ {limit : Duration} {body : Process Outcome}, T body → T (within limit body .done)
  branches : ∀ {ps : List (Process Outcome)}, (∀ p ∈ ps, T p) → T (branches ps)

namespace Process.Closed

variable {agents : Table AgentSpec} {T : {α : Type} → Process α → Prop} {α β : Type} {p : Process α}

section Acts

variable (h : Closed agents T) {x : Act α} {k : α → Act β}

include h

lemma act_lift (hp : T p) : T (liftM p : Act α).run := h.bind hp fun _ => h.done _

lemma act_bind (hx : T x.run) (hk : ∀ a, T (k a).run) : T (x >>= k).run := by
  refine h.bind hx fun r => ?_
  cases r with
  | ok a => exact hk a
  | error e => exact h.done _

lemma limited {body : Act Answer} (hbody : T body.run) (agent : String) (limit : Duration) :
    T (Context.limited agent (some limit) body).run := by
  have hwithin : T (Process.within limit body.run .done) := h.within hbody
  refine h.bind hwithin fun o => ?_
  cases o <;> exact h.done _

end Acts

section Frames

variable (h : Closed agents T) {x : Exec α} {frame : Frame}

include h

lemma exec_lift (hp : T p) : T ((liftM p : Exec α).run.run frame) :=
  h.bind (h.bind hp fun _ => h.done _) fun _ => h.done _

lemma exec_instant (hx : x.Instant) : T (x.run.run frame) := by
  obtain ⟨r, frame', hdone, -⟩ := hx frame
  rw [hdone]
  exact h.done _

lemma exec_succeeds (hx : x.Succeeds) : T (x.run.run frame) := by
  obtain ⟨a, frame', hdone⟩ := hx frame
  rw [hdone]
  exact h.done _

lemma exec_throw (e : RunError) : T ((throw e : Exec α).run.run frame) := h.done _

lemma exec_bind {k : α → Exec β} (hx : T (x.run.run frame)) (hk : ∀ a frame, T ((k a).run.run frame)) :
    T ((x >>= k).run.run frame) := by
  refine h.bind hx fun (r, after) => ?_
  cases r with
  | ok a => exact hk a after
  | error e => exact h.done _

lemma exec_tryCatch {handle : RunError → Exec α} (hx : T (x.run.run frame))
    (hhandle : ∀ e frame, T ((handle e).run.run frame)) : T ((tryCatch x handle).run.run frame) := by
  refine h.bind hx fun (r, after) => ?_
  cases r with
  | ok a => exact h.done _
  | error e => exact hhandle e after

lemma exec_located (hx : T (x.run.run frame)) (i : Instr) (site : Site) :
    T ((Exec.located i site x).run.run frame) := by
  refine h.exec_tryCatch hx fun e _ => h.exec_bind (h.exec_lift ?_) fun _ _ => h.exec_throw _
  exact h.note (n := .failed i e.fault) trivial

lemma exec_lastly {last : Exec Unit} (hx : T (x.run.run frame)) (hlast : last.Succeeds) :
    T ((Exec.lastly x last).run.run frame) := by
  refine h.exec_bind (h.exec_tryCatch hx fun e _ => ?_) fun a _ => ?_
  · exact h.exec_bind (h.exec_succeeds hlast) fun _ _ => h.exec_throw e
  · exact h.exec_bind (h.exec_succeeds hlast) fun _ _ => h.exec_instant (Exec.instant_pure a)

end Frames

lemma runBody (h : Closed agents T) {s : Scene} {calls : Calls} {bound : Nat} {f : FlowUnit}
    (args : List Json) (hbody : ∀ frame, T ((s.execBlock calls bound f.body).run.run frame))
    (hfailure : ∀ block ∈ f.onFailure, ∀ frame, T ((s.execBlock calls bound block).run.run frame)) :
    T (s.runBody calls bound f args).run := by
  refine h.act_bind (h.act_lift (hbody _)) fun (outcome, frame) => ?_
  cases outcome with
  | ok control => exact h.done _
  | error e =>
    dsimp only
    split
    · next block hblock _ =>
      refine h.act_bind (h.act_lift (h.note (n := .recovered f.name) trivial)) fun _ => ?_
      refine h.act_bind (h.act_lift (hfailure block hblock _)) fun (outcome, frame) => ?_
      cases outcome <;> exact h.done _
    · exact h.done _

lemma composable {c : Context} (h : Closed c.unit.agents T) :
    Composable c (fun x => T x.run) (fun x => ∀ frame, T (x.run.run frame)) where
  value _ := h.done _
  fault _ := h.done _
  stuck := h.stuck
  chain := h.act_bind
  event hevent := h.act_lift (h.note hevent)
  built hbuilt := h.act_lift (h.note ⟨_, hbuilt⟩)
  wait time := h.act_lift (h.wait time)
  limited agent limit _ hbody := h.limited hbody agent limit
  instant hx _ := h.exec_instant hx
  next hx hk _ := h.exec_bind (hx _) fun a => hk a
  report hevent _ := h.exec_lift (h.note hevent)
  pause _ := h.exec_lift h.pause
  call hx _ := h.bind hx fun _ => h.done _
  located i hx _ := h.exec_located (hx _) i _
  lastly hx hlast _ := h.exec_lastly (hx _) hlast
  branches hps hk hthrow _ := by
    refine h.exec_bind (h.exec_lift (h.branches hps)) fun r => ?_
    cases r with
    | ok answers => exact hk answers
    | error e => exact hthrow e ▸ fun _ => h.exec_throw e
  block frame hx hk hthrow := by
    refine h.act_bind (h.act_lift (hx frame)) fun (r, after) => ?_
    cases r with
    | ok a => exact hk a after
    | error e => exact hthrow e after ▸ h.done _
  body args _ := h.runBody args

end Process.Closed

/-! ### Quiet parts of a run -/

namespace Act

variable {α β : Type} {agents : Table AgentSpec}

/-- A process that may fail tells ordinary notes only. -/
def Quiet (agents : Table AgentSpec) (x : Act α) : Prop := x.run.Tells (Note.Ordinary agents)

lemma quiet_pure (a : α) : Quiet agents (pure a : Act α) := trivial

end Act

lemma Process.tells_closed (agents : Table AgentSpec) : Closed agents (Tells (Note.Ordinary agents)) where
  done _ := trivial
  stuck := trivial
  bind := Tells.bind
  note := tells_note
  pause := ⟨nofun, trivial⟩
  wait _ := trivial
  within hbody := ⟨hbody, fun _ => trivial⟩
  branches := tells_branches

lemma Act.Quiet.bind {α β : Type} {agents : Table AgentSpec} {x : Act α} {k : α → Act β} (hx : Quiet agents x)
    (hk : ∀ a, Quiet agents (k a)) : Quiet agents (x >>= k) := (tells_closed agents).act_bind hx hk

namespace Context

lemma quiet_rules (c : Context) : Rules c (Act.Quiet c.unit.agents)
    (fun x => ∀ frame, (x.run.run frame).Tells (Note.Ordinary c.unit.agents)) where
  toComposable := (tells_closed c.unit.agents).composable
  request _ _ := trivial

lemma quiet_start (c : Context) (fuel : Nat) (input : Json) :
    Act.Quiet c.unit.agents (c.start fuel input) := c.quiet_rules.start fuel input

lemma quiet_enter (s : Scene) (fuel : Nat) (args : List Json) (entry : Entry) :
    Act.Quiet s.unit.agents (enter s fuel args entry) := s.quiet_rules.enter fuel args entry

end Context

end Workflow
