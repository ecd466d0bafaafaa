import Workflow.Proofs.Origins

/-!
Errors that end a run, and errors that end at a flow. Once a statement aborts outside of all branches, no
failure block takes over: `Process.Heeds` says so of a process, and each step of the machine keeps it up. All
other errors of the body of a flow go to its failure block, if it has one.
-/

namespace Workflow

open List Exec Context Scene Term

/-- Whether a note is that a failure block takes over. -/
def Note.isRecovery : Note → Bool
  | recovered _ => true
  | _ => false

def RunFault.Ends {α : Type} (fault : RunFault) (r : Except RunError α) : Prop :=
  ∃ e, r = .error e ∧ e.fault = fault

namespace Process

variable {α β : Type} {f : α → Process β} {p : Process α}

/-- A process that only notes things down, without a failure block that takes over, and comes to a result of a
kind. -/
inductive Settles (R : α → Prop) : Process α → Prop where
  | done {a} (result : R a) : Settles R (.done a)
  | tell {notes} {next} (kind : ∀ n ∈ notes, n.isRecovery = false)
      (after : Settles R (next ())) : Settles R (.tell notes next)

/-- A process in which nothing but a result of a kind comes after a statement that aborts. Branches may abort. -/
def Heeds : {α : Type} → Process α → (RunFault → α → Prop) → Prop
  | _, done _, _ => True
  | _, stuck, _ => True
  | _, tell notes next, R => (next ()).Heeds R ∧ ∀ i fault, .failed i fault ∈ notes →
      fault.isFatal = true → (tell notes next).Settles (R fault)
  | _, ask _ next, R => ∀ reply, (next reply).Heeds R
  | _, sleep _ next, R => (next ()).Heeds R
  | _, within _ body next, R => body.Heeds RunFault.Ends ∧ (∀ o, (next o).Heeds R) ∧
      ∀ e : RunError, e.fault.isFatal = true → (next (some (.error e))).Settles (R e.fault)
  | _, parallel _ _ next, R => ∀ r, (next r).Heeds R

lemma Settles.bind {R : α → Prop} {R' : β → Prop} (hp : p.Settles R) (hf : ∀ a, R a → (f a).Settles R') :
    (p >>= f).Settles R' := by
  induction hp with
  | done result => exact hf _ result
  | tell kind _ ih => exact .tell kind ih

lemma Heeds.bind {R : RunFault → α → Prop} {R' : RunFault → β → Prop} (hp : p.Heeds R)
    (hf : ∀ a, (f a).Heeds R') (hpass : ∀ fault a, fault.isFatal = true → R fault a → (f a).Settles (R' fault)) :
    (p >>= f).Heeds R' := by
  induction p with
  | done a => exact hf a
  | stuck => trivial
  | tell notes next ih =>
    exact ⟨ih () hp.1 hf hpass, fun i fault hfailed hfatal =>
      (hp.2 i fault hfailed hfatal).bind fun a => hpass fault a hfatal⟩
  | ask request next ih => exact fun reply => ih reply (hp reply) hf hpass
  | sleep time next ih => exact ih () hp hf hpass
  | within limit body next _ ih =>
    exact ⟨hp.1, fun o => ih o (hp.2.1 o) hf hpass, fun e hfatal =>
      (hp.2.2 e hfatal).bind fun a => hpass e.fault a hfatal⟩
  | parallel count branch next _ ih => exact fun r => ih r (hp r) hf hpass

lemma heeds_note {n : Note} (h : n.isFailure = false) (R : RunFault → Unit → Prop) : (note n).Heeds R := by
  refine ⟨trivial, fun i fault hfailed _ => ?_⟩
  obtain rfl := mem_singleton.1 hfailed
  cases h

end Process

/-! ### Parts of a run -/

namespace Act

variable {α β : Type}

/-- A process that may fail, and after an abort does nothing but that. -/
def Heeds (x : Act α) : Prop := x.run.Heeds RunFault.Ends

lemma heeds_lift {p : Process α} (h : p.Heeds fun _ _ => False) : Heeds (liftM p) :=
  Process.Heeds.bind h (fun _ => trivial) fun _ _ _ => False.elim

lemma Heeds.bind {x : Act α} {k : α → Act β} (hx : Heeds x) (hk : ∀ a, Heeds (k a)) : Heeds (x >>= k) := by
  refine Process.Heeds.bind hx (fun r => ?_) fun fault r _ hr => ?_
  · cases r with
    | ok a => exact hk a
    | error e => trivial
  · obtain ⟨e, rfl, he⟩ := hr
    exact .done ⟨e, rfl, he⟩

lemma Heeds.limited {body : Act Answer} (h : Heeds body) (agent : String) (limit : Duration) :
    Heeds (limited agent (some limit) body) := by
  refine ⟨h, fun o => ?_, fun e _ => .done ⟨e, rfl, rfl⟩⟩
  cases o <;> trivial

end Act

namespace Exec

variable {α β : Type} {x : Exec α}

/-- A process in a frame, that after an abort does nothing but fail. -/
def Heeds (x : Exec α) : Prop := ∀ frame, (x.run.run frame).Heeds fun fault r => fault.Ends r.1

lemma Instant.heeds (h : x.Instant) : Heeds x := by
  intro frame
  obtain ⟨r, frame', hdone, -⟩ := h frame
  rw [hdone]
  trivial

lemma heeds_lift {p : Process α} (h : p.Heeds fun _ _ => False) : Heeds (liftM p) := by
  intro frame
  refine Process.Heeds.bind (R := fun _ _ => False) ?_ (fun _ => trivial) fun _ _ _ => False.elim
  exact Process.Heeds.bind h (fun _ => trivial) fun _ _ _ => False.elim

lemma heeds_ofAct {x : Act α} (h : Act.Heeds x) : Heeds (ofAct x) :=
  fun _ => Process.Heeds.bind h (fun _ => trivial) fun _ _ _ hr => .done hr

lemma Heeds.bind {k : α → Exec β} (hx : Heeds x) (hk : ∀ a, Heeds (k a)) : Heeds (x >>= k) := by
  intro frame
  refine Process.Heeds.bind (hx frame) (fun (r, mid) => ?_) fun fault (r, mid) _ hr => ?_
  · cases r with
    | ok a => exact hk a mid
    | error e => trivial
  · obtain ⟨e, rfl, he⟩ := hr
    exact .done ⟨e, rfl, he⟩

lemma Heeds.tryCatch (hx : Heeds x) (hhandle : ∀ e, Heeds (handle e))
    (hpass : ∀ (e : RunError) frame, ((handle e).run.run frame).Settles fun r => e.fault.Ends r.1) :
    Heeds (tryCatch x handle) := by
  intro frame
  refine Process.Heeds.bind (hx frame) (fun (r, mid) => ?_) fun fault (r, mid) _ hr => ?_
  · cases r with
    | ok a => trivial
    | error e => exact hhandle e mid
  · obtain ⟨e, rfl, rfl⟩ := hr
    exact hpass e mid

lemma Heeds.located (h : Heeds x) (i : Instr) (site : Site) : Heeds (located i site x) := by
  have hsettles : ∀ (e : RunError) (frame : Frame), Process.Settles (fun r => e.fault.Ends r.1)
      (.tell [.failed i e.fault] fun _ => .done ((.error (e.located site) : Except RunError α), frame)) := by
    intro e frame
    refine .tell (fun n hn => ?_) (.done ⟨_, rfl, e.fault_located site⟩)
    rw [mem_singleton.1 hn]
    rfl
  refine h.tryCatch (fun e frame => ⟨trivial, fun j fault hfailed _ => ?_⟩) hsettles
  cases mem_singleton.1 hfailed
  exact hsettles e frame

lemma Heeds.lastly {last : Exec Unit} (hx : Heeds x) (hlast : last.Succeeds) : Heeds (lastly x last) := by
  refine Heeds.bind (hx.tryCatch (fun e frame => ?_) fun e frame => ?_) fun a frame => ?_
  · obtain ⟨⟨⟩, mid, hdone⟩ := hlast frame
    rw [run_bind_ok hdone]
    trivial
  · obtain ⟨⟨⟩, mid, hdone⟩ := hlast frame
    rw [run_bind_ok hdone]
    exact .done ⟨e, rfl, rfl⟩
  · obtain ⟨⟨⟩, mid, hdone⟩ := hlast frame
    rw [run_bind_ok hdone]
    trivial

lemma Heeds.block {k : Except RunError α × Frame → Act β} (hx : Heeds x) (frame : Frame)
    (hk : ∀ r frame, Act.Heeds (k (r, frame)))
    (hthrow : ∀ (e : RunError) frame, e.fault.isFatal = true → k (.error e, frame) = throw e) :
    Act.Heeds ((liftM (x.run.run frame) : Act (Except RunError α × Frame)) >>= k) := by
  unfold Act.Heeds
  rw [Act.run_lift_bind]
  refine Process.Heeds.bind (hx frame) (fun (r, mid) => hk r mid) fun fault (r, mid) hfatal hr => ?_
  obtain ⟨e, rfl, rfl⟩ := hr
  rw [hthrow e mid hfatal]
  exact .done ⟨e, rfl, rfl⟩

end Exec

lemma Scene.heeds_runBody {s : Scene} {calls : Calls} {bound : Nat} {f : FlowUnit} (args : List Json)
    (hbody : Exec.Heeds (s.execBlock calls bound f.body))
    (hfailure : ∀ block ∈ f.onFailure, Exec.Heeds (s.execBlock calls bound block)) :
    Act.Heeds (s.runBody calls bound f args) := by
  refine hbody.block _ (fun outcome frame => ?_) fun e frame hfatal => ?_
  · cases outcome with
    | ok control => trivial
    | error e =>
      dsimp only
      split
      · next block hblock _ =>
        refine (Act.heeds_lift (Process.heeds_note rfl _)).bind fun _ => ?_
        refine (hfailure block hblock).block _ (fun outcome frame => ?_) fun _ _ _ => rfl
        cases outcome <;> trivial
      · trivial
  · dsimp only
    rw [hfatal]
    split
    · next h => cases h
    · rfl

namespace Context

lemma heed_rules (c : Context) : Rules c Act.Heeds Exec.Heeds where
  value _ := trivial
  fault _ := trivial
  stuck := trivial
  chain := Act.Heeds.bind
  event _ := Act.heeds_lift (Process.heeds_note rfl _)
  built _ := Act.heeds_lift (Process.heeds_note rfl _)
  request _ := Act.heeds_lift fun _ => trivial
  wait _ := Act.heeds_lift trivial
  limited agent limit _ h := h.limited agent limit
  instant := Exec.Instant.heeds
  next := Exec.Heeds.bind
  report _ := heeds_lift (Process.heeds_note rfl _)
  pause := heeds_lift ⟨trivial, nofun⟩
  call := heeds_ofAct
  located i h := h.located i _
  lastly := Exec.Heeds.lastly
  branches _ hk hthrow := by
    have hjoin : ∀ ps, (Process.branches ps).Heeds fun _ _ => False := fun _ _ => trivial
    refine (heeds_lift (hjoin _)).bind fun r => ?_
    cases r with
    | ok answers => exact hk answers
    | error e =>
      rw [hthrow]
      exact fun _ => trivial
  block frame hx hk hthrow := by
    refine hx.block frame (fun r mid => ?_) fun e mid _ => hthrow e mid
    cases r with
    | ok a => exact hk a mid
    | error e =>
      rw [hthrow]
      trivial
  body args _ := heeds_runBody args

lemma heeds_process (c : Context) (fuel : Nat) (entry : Entry) (args : List Json) :
    Act.Heeds (c.process fuel entry args) := by
  refine (c.heed_rules.start fuel _).bind fun globals => ?_
  have hscene : Rules (toContext { c with globals := globals }) Act.Heeds Exec.Heeds := c.heed_rules
  refine Process.Heeds.bind (hscene.enter fuel args entry) (fun o => ?_) fun fault o _ ho => ?_
  · exact ⟨trivial, fun i fault hfailed _ => nomatch mem_singleton.1 hfailed⟩
  · refine .tell (fun n hn => ?_) (.done ho)
    rw [mem_singleton.1 hn]
    rfl

end Context

/-! ### Machines -/

/-- What comes after a time limit hands an abort inside it on. -/
def Limit.Passes (l : Limit) : Prop :=
  ∀ e : RunError, e.fault.isFatal = true → (l.next (some (.error e))).Settles e.fault.Ends

/-- The first task heeds aborts, and so does what comes after its time limits. -/
def Running.Heeds (t : Running) : Prop :=
  t.parent = none → t.process.Heeds RunFault.Ends ∧ ∀ l ∈ t.limits, l.Passes ∧ ∀ o, (l.next o).Heeds RunFault.Ends

lemma Running.outlasts_heeds : Outlasts Heeds := by
  intro id parent l rest p h hparent
  obtain ⟨hl, hrest⟩ := forall_mem_cons.1 (h hparent).2
  exact ⟨hl.2 none, hrest⟩

lemma Running.Heeds.onward {t : Running} (h : t.Heeds) : t.Onward Heeds := by
  obtain ⟨id, parent, limits, process⟩ := t
  cases process with
  | done o =>
    rintro l rest rfl hparent
    obtain ⟨hl, hrest⟩ := forall_mem_cons.1 (h hparent).2
    exact ⟨hl.2 _, hrest⟩
  | stuck => trivial
  | tell notes next => exact fun hparent => ⟨(h hparent).1.1, (h hparent).2⟩
  | ask request next => exact fun reply hparent => ⟨(h hparent).1 reply, (h hparent).2⟩
  | sleep time next => exact h
  | within limit body next =>
    intro deadline hparent
    obtain ⟨⟨hbody, hnext, hpasses⟩, hlimits⟩ := h hparent
    exact ⟨hbody, forall_mem_cons.2 ⟨⟨hpasses, hnext⟩, hlimits⟩⟩
  | parallel count branch next => exact ⟨fun _ _ => nofun, fun r hparent => ⟨(h hparent).1 r, (h hparent).2⟩⟩

namespace Machine

variable {σ : Type} {c : Client σ} {m : Machine σ} {fault : RunFault} {steps id : Nat} {p : Process Outcome}

/-- A statement of the first task, outside of all branches, is about to fail. -/
structure AtFailure (m : Machine σ) (i : Instr) (fault : RunFault) : Prop where
  ongoing : m.isOver = false
  failing : ∃ t notes next, m.running = some t ∧ t.parent = none ∧ t.process = .tell notes next ∧
    .failed i fault ∈ notes

/-- The machine comes to an error with a fault, and until then no failure block takes over. -/
structure EndsIn (c : Client σ) (m : Machine σ) (fault : RunFault) : Prop where
  result : ∃ steps e, e.fault = fault ∧ ∀ more, (run c (steps + more) m).result = some (.error e)
  unrecovered : ∀ steps, ∃ later, (run c steps m).notes = later ++ m.notes ∧ ∀ n ∈ later, n.isRecovery = false

lemma endsIn_of_result (h : m.result = some (.error e)) : m.EndsIn c e.fault := by
  refine ⟨⟨0, e, rfl, fun more => ?_⟩, fun steps => ⟨[], ?_, nofun⟩⟩
  · rw [run_of_result _ h, h]
  · rw [run_of_result _ h]
    rfl

lemma EndsIn.of_step (h : (m.step c).EndsIn c fault) (hover : m.isOver = false) (told : List Note)
    (hnotes : (m.step c).notes = told ++ m.notes) (hkind : ∀ n ∈ told, n.isRecovery = false) :
    m.EndsIn c fault := by
  obtain ⟨⟨steps, e, he, hresult⟩, hlater⟩ := h
  refine ⟨⟨steps + 1, e, he, fun more => ?_⟩, fun steps => ?_⟩
  · rw [Nat.add_right_comm, run_succ _ hover]
    exact hresult more
  · cases steps with
    | zero => exact ⟨[], rfl, nofun⟩
    | succ steps =>
      obtain ⟨later, heq, hlater⟩ := hlater steps
      refine ⟨later ++ told, ?_, forall_mem_append.2 ⟨hlater, hkind⟩⟩
      rw [run_succ _ hover, heq, hnotes, append_assoc]

lemma EndsIn.result_of_run (h : (run c steps m).EndsIn c fault) (ho : (run c fuel m).result = some o) :
    fault.Ends o := by
  obtain ⟨⟨more, e, he, hresult⟩, -⟩ := h
  have hlate := hresult fuel
  have hsteps : steps + (more + fuel) = fuel + (steps + more) := by omega
  rw [← run_add, hsteps, run_add, run_of_result _ ho, ho] at hlate
  cases hlate
  exact ⟨e, rfl, he⟩

lemma EndsIn.of_done (hp : p.Settles fault.Ends) (hdone : ∀ {m : Machine σ} (e : RunError), e.fault = fault →
      m.running = some ⟨id, none, limits, .done (.error e)⟩ → m.isOver = false → m.EndsIn c fault)
    (hrunning : m.running = some ⟨id, none, limits, p⟩) (hover : m.isOver = false) : m.EndsIn c fault := by
  induction hp generalizing m with
  | done result =>
    obtain ⟨e, rfl, he⟩ := result
    exact hdone e he hrunning hover
  | @tell notes next kind _ ih =>
    have hstep : m.step c =
        { m with notes := notes.reverse ++ m.notes, running := some ⟨id, none, limits, next ()⟩ } := by
      rw [step, hrunning]
      rfl
    have hafter : (m.step c).EndsIn c fault := ih (by rw [hstep]) (by rw [hstep]; exact hover)
    refine hafter.of_step hover notes.reverse (by rw [hstep]) fun n hn => ?_
    exact kind n (mem_reverse.1 hn)

lemma endsIn_of_settles (hfatal : fault.isFatal = true) : ∀ {limits},
    (∀ l ∈ limits, l.Passes) → ∀ {p : Process Outcome}, p.Settles fault.Ends → ∀ {m : Machine σ},
    m.running = some ⟨id, none, limits, p⟩ → m.isOver = false → m.EndsIn c fault
  | [], _, p, hp, m, hrunning, hover => by
    refine EndsIn.of_done hp (fun {m} e he hrunning hover => ?_) hrunning hover
    have hstep : m.step c = m.finish ⟨id, none, [], .done (.error e)⟩ (.error e) := by
      rw [step, hrunning]
      rfl
    have hafter : (m.step c).EndsIn c e.fault := endsIn_of_result (by rw [hstep]; rfl)
    exact (he ▸ hafter).of_step hover [] (by rw [hstep]; rfl) (forall_mem_nil _)
  | l :: rest, hlimits, p, hp, m, hrunning, hover => by
    obtain ⟨hl, hrest⟩ := forall_mem_cons.1 hlimits
    refine EndsIn.of_done hp (fun {m} e he hrunning hover => ?_) hrunning hover
    have hstep : m.step c = { m with running := some ⟨id, none, rest, l.next (some (.error e))⟩ } := by
      rw [step, hrunning]
      rfl
    have hsettles : (l.next (some (.error e))).Settles fault.Ends := he ▸ hl e (he.symm ▸ hfatal)
    have hafter : (m.step c).EndsIn c fault :=
      endsIn_of_settles hfatal hrest hsettles (by rw [hstep]) (by rw [hstep]; exact hover)
    exact hafter.of_step hover [] (by rw [hstep]; rfl) (forall_mem_nil _)

lemma AtFailure.endsIn (hp : p.Heeds RunFault.Ends) {client : σ}
    (h : (run c steps (start client p)).AtFailure i fault) (hfatal : fault.isFatal = true) :
    (run c steps (start client p)).EndsIn c fault := by
  obtain ⟨hover, ⟨id, parent, limits, _⟩, notes, next, hrunning, rfl, rfl, hfailed⟩ := h
  have hstart : (start client p).Every Running.Heeds := every_start client fun _ => ⟨hp, nofun⟩
  have hevery := hstart.run Running.outlasts_heeds (fun _ => Running.Heeds.onward) c steps
  obtain ⟨hheeds, hlimits⟩ := hevery.running _ hrunning rfl
  exact endsIn_of_settles hfatal (fun l hl => (hlimits l hl).1) (hheeds.2 i fault hfailed hfatal) hrunning hover

end Machine

/-! ### Statements that abort -/

def Calls.agentAnswer (calls : Calls) (name : String) (args : List Term) : Exec Answer := do
  let values ← evalAll args
  ofAct (calls.agent name values (← visible))

def Calls.promptAnswer (calls : Calls) (name : String) (args : List Term) (model : Option String) : Exec Answer := do
  let values ← evalAll args
  ofAct (calls.prompt name values model (← visible))

/-- Statements that abort in a frame, with what was told before, the fault and the frame that is left. -/
inductive Op.Fires (calls : Calls) (frame : Frame) : Op → List Note → RunFault → Frame → Prop where
  | abort : Fires calls frame (.abort none) [] (.aborted "workflow aborted") frame
  | abortWith {message} {v} (text : message.eval frame.bindings = .ok v) :
      Fires calls frame (.abort (some message)) [] (.aborted v.plainText) frame
  | agent {target} {name} {args} {told} {answer} {frame'}
      (answered : ((calls.agentAnswer name args).run.run frame).Course told (.ok answer, frame'))
      (escalated : answer.escalated = true) :
      Fires calls frame (.runAgent target name args (some .abort)) told (.escalated name) frame'
  | prompt {target} {name} {args} {model} {told} {answer} {frame'}
      (answered : ((calls.promptAnswer name args model).run.run frame).Course told (.ok answer, frame'))
      (escalated : answer.escalated = true) :
      Fires calls frame (.callPrompt target name args model (some .abort)) told (.escalated name) frame'

lemma Exec.course_settle_abort {x : Exec Answer} {frame frame' : Frame} {told : List Note}
    (answered : (x.run.run frame).Course told (.ok answer, frame')) (escalated : answer.escalated = true)
    (name : String) (target : Option String) : ((x >>= settle name target (some .abort)).run.run frame).Course told
      (.error { fault := .escalated name }, frame') := by
  have hsettle : (settle name target (some .abort) answer).run.run frame' =
      .done (.error { fault := .escalated name }, frame') := by
    unfold settle
    rw [escalated]
    rfl
  rw [← append_nil told]
  refine course_bind_ok answered ?_
  rw [hsettle]
  exact .done _

namespace Context

variable {c : Context} {calls : Calls} {bound : Nat} {frame frame' : Frame} {told : List Note}
  {fault : RunFault} {i : Instr} {rest : List Instr}

lemma course_of_fires (h : i.op.Fires calls frame told fault frame') :
    ((c.execInstr calls bound i).run.run frame).Course told (.error { fault := fault }, frame') := by
  obtain ⟨line, op, body⟩ := i
  cases h with
  | abort =>
    rw [execInstr]
    exact .done _
  | @abortWith message v text =>
    have heval : (eval message).run.run frame = .done (.ok v, frame) := by
      rw [run_eval, text]
      rfl
    rw [execInstr, run_bind_ok heval]
    exact .done _
  | @agent target name args told answer frame' answered escalated =>
    have hinstr : c.execInstr calls bound (.mk line (.runAgent target name args (some .abort)) body) =
        calls.agentAnswer name args >>= Exec.settle name target (some .abort) := by
      rw [execInstr, Calls.agentAnswer]
      simp only [bind_assoc]
    rw [hinstr]
    exact course_settle_abort answered escalated name target
  | @prompt target name args model told answer frame' answered escalated =>
    have hinstr : c.execInstr calls bound (.mk line (.callPrompt target name args model (some .abort)) body) =
        calls.promptAnswer name args model >>= Exec.settle name target (some .abort) := by
      rw [execInstr, Calls.promptAnswer]
      simp only [bind_assoc]
    rw [hinstr]
    exact course_settle_abort answered escalated name target

lemma isFatal_of_fires {op : Op} (h : op.Fires calls frame told fault frame') : fault.isFatal = true := by
  cases h <;> rfl

lemma course_block_of_fires (h : i.op.Fires calls frame told fault frame') (rest : List Instr) :
    ((c.execBlock calls bound (i :: rest)).run.run frame).Course (told ++ [.failed i fault])
      (.error ⟨fault, some (c.site i.line)⟩, frame') := by
  have hbranch : ∀ condition, i.op ≠ .branch condition := by
    intro condition hop
    rw [hop] at h
    cases h
  have hlocated : ((located i (c.site i.line) (c.execInstr calls bound i)).run.run frame).Course
      (told ++ [.failed i fault]) (.error ⟨fault, some (c.site i.line)⟩, frame') :=
    (course_of_fires h).bind (.tell (.done _))
  rw [execBlock_step fun condition _ _ _ hop => absurd hop (hbranch condition)]
  exact course_bind_error hlocated

end Context

/-! ### Flows with a failure block -/

namespace Scene

variable {s : Scene} {calls : Calls} {bound fuel : Nat} {name : String} {f : FlowUnit} {block : List Instr}
  {args : List Json} {notes : List Note} {r : Except RunError Json}

/-- The courses of a flow with a failure block, by those of its body. After an error that is no abort the
failure block runs, once and in the frame that the body has left, and decides what comes of the flow. -/
inductive BodyCourse (s : Scene) (calls : Calls) (bound : Nat) (f : FlowUnit) (block : List Instr)
    (args : List Json) : List Note → Except RunError Json → Prop where
  | returns {told} {control} {frame}
      (body : ((s.execBlock calls bound f.body).run.run (s.flowFrame f args)).Course told (.ok control, frame)) :
      BodyCourse s calls bound f block args told (.ok control.value)
  | aborts {told} {e} {frame}
      (body : ((s.execBlock calls bound f.body).run.run (s.flowFrame f args)).Course told (.error e, frame))
      (fatal : e.fault.isFatal = true) : BodyCourse s calls bound f block args told (.error e)
  | recovers {told more} {e} {frame frame'} {r}
      (body : ((s.execBlock calls bound f.body).run.run (s.flowFrame f args)).Course told (.error e, frame))
      (mild : e.fault.isFatal = false)
      (failure : ((s.execBlock calls bound block).run.run (frame.failed e)).Course more (r, frame')) :
      BodyCourse s calls bound f block args (told ++ .recovered f.name :: more) (r.map Control.value)

lemma bodyCourse_iff (hblock : f.onFailure = some block) :
    (s.runBody calls bound f args).run.Course notes r ↔ s.BodyCourse calls bound f block args notes r := by
  unfold runBody
  rw [hblock]
  constructor
  · intro h
    obtain ⟨told, rest, ⟨outcome, frame⟩, rfl, hbody, hrest⟩ := Act.course_lift_bind.1 h
    cases outcome with
    | ok control =>
      obtain ⟨rfl, rfl⟩ := Process.course_done.1 hrest
      rw [append_nil]
      exact .returns hbody
    | error e =>
      dsimp only at hrest
      cases hfatal : e.fault.isFatal with
      | true =>
        rw [hfatal] at hrest
        obtain ⟨rfl, rfl⟩ := Process.course_done.1 hrest
        rw [append_nil]
        exact .aborts hbody hfatal
      | false =>
        rw [hfatal] at hrest
        obtain ⟨_, rfl, htaken⟩ := Act.course_note.1 hrest
        obtain ⟨more, last, ⟨outcome, _⟩, rfl, hfailure, hlast⟩ := Act.course_lift_bind.1 htaken
        have hdone : last = [] ∧ r = outcome.map Control.value := by
          cases outcome <;> exact Process.course_done.1 hlast
        obtain ⟨rfl, rfl⟩ := hdone
        rw [append_nil]
        exact .recovers hbody hfatal hfailure
  · intro h
    cases h with
    | returns body => exact append_nil notes ▸ Act.course_lift_bind.2 ⟨notes, [], _, rfl, body, .done _⟩
    | @aborts _ e frame body fatal =>
      refine Act.course_lift_bind.2 ⟨notes, [], (.error e, frame), (append_nil _).symm, body, ?_⟩
      dsimp only
      rw [fatal]
      exact .done _
    | @recovers told more e frame frame' outcome body mild failure =>
      refine Act.course_lift_bind.2 ⟨told, .recovered f.name :: more, (.error e, frame), rfl, body, ?_⟩
      dsimp only
      rw [mild]
      refine Act.course_note.2 ⟨more, rfl, ?_⟩
      refine Act.course_lift_bind.2 ⟨more, [], (outcome, frame'), (append_nil _).symm, failure, ?_⟩
      cases outcome <;> exact .done _

/-- What a flow that comes to a result notes down last. -/
def farewell (name : String) : Except RunError Json → List Note
  | .ok v => [.event (.flowFinished name v)]
  | .error _ => []

lemma callFlow_course_iff (hf : s.unit.flows.get? name = some f)
    (hargs : f.params.length = args.length ∨ f.params = []) (hblock : f.onFailure = some block) :
    (s.callFlow (fuel + 1) name args).run.Course notes r ↔ ∃ told,
      s.BodyCourse (s.calls fuel) fuel f block args told r ∧
        notes = .event (.flowStarted name) :: (told ++ farewell name r) := by
  rw [callFlow, runFlow_eq hf hargs, Process.emit, Act.course_note]
  constructor
  · rintro ⟨rest, rfl, hrest⟩
    rcases Act.course_bind hrest with ⟨told, _, v, rfl, hbody, hfinish⟩ | ⟨e, rfl, hbody⟩
    · obtain ⟨_, rfl, hpure⟩ := Act.course_note.1 hfinish
      obtain ⟨rfl, rfl⟩ := Process.course_done.1 hpure
      exact ⟨told, (bodyCourse_iff hblock).1 hbody, rfl⟩
    · exact ⟨rest, (bodyCourse_iff hblock).1 hbody, congrArg _ (append_nil rest).symm⟩
  · rintro ⟨told, hbody, rfl⟩
    refine ⟨_, rfl, ?_⟩
    have hbody := (bodyCourse_iff hblock).2 hbody
    cases r with
    | ok v => exact hbody.bind (.tell (.done _))
    | error e => exact hbody.bind (.done _)

end Scene

lemma Frame.eval_failed (frame : Frame) (e : RunError) :
    eval (frame.failed e).bindings (.path "error" ["message"]) = .ok (.str e.fault.message) ∧
      eval (frame.failed e).bindings (.path "error" ["kind"]) = .ok (.str e.fault.kind) := by
  have hget : (frame.failed e).bindings.get "error" = .ok e.toValue := by
    simp [Bindings.get, Bindings.get?, Frame.failed, Bindings.set]
  constructor <;>
  · rw [Term.eval, Bindings.getPath, hget]
    rfl

namespace Context

/-- An abort outside of all branches is how the run ends: with its fault, and without a failure block that takes
over. In a flow with a failure block every other error of the body ends at the block, which runs once with the
message and the kind of the error, and decides what the flow comes to. -/
theorem abort_ends_run (c : Context) :
    (∀ {σ : Type} (client : Client σ) (state : σ) (fuel : Nat) (entry : Entry) (args : List Json)
      (steps : Nat) {i : Instr} {fault : RunFault}, fault.isFatal = true →
      (Machine.run client steps (Machine.start state (c.process fuel entry args).run)).AtFailure i fault →
      (Machine.run client steps (Machine.start state (c.process fuel entry args).run)).EndsIn client fault ∧
        ∀ outcome, (c.run client state fuel entry args).outcome = some outcome → fault.Ends outcome) ∧
    (∀ {calls frame told fault frame'} {i : Instr}, i.op.Fires calls frame told fault frame' →
      fault.isFatal = true ∧ ∀ bound rest,
        ((c.execBlock calls bound (i :: rest)).run.run frame).Course (told ++ [.failed i fault])
          (.error ⟨fault, some (c.site i.line)⟩, frame')) ∧
    ∀ (globals : Table Json) (fuel : Nat) {name : String} {f : FlowUnit} {block : List Instr} {args : List Json},
      c.unit.flows.get? name = some f → (f.params.length = args.length ∨ f.params = []) →
      f.onFailure = some block →
      (∀ notes r, (callFlow ⟨c, globals⟩ (fuel + 1) name args).run.Course notes r ↔ ∃ told,
        Scene.BodyCourse ⟨c, globals⟩ (calls ⟨c, globals⟩ fuel) fuel f block args told r ∧
          notes = .event (.flowStarted name) :: (told ++ farewell name r)) ∧
      ∀ (frame : Frame) (e : RunError),
        eval (frame.failed e).bindings (.path "error" ["message"]) = .ok (.str e.fault.message) ∧
          eval (frame.failed e).bindings (.path "error" ["kind"]) = .ok (.str e.fault.kind) := by
  refine ⟨fun client state fuel entry args steps i fault hfatal hfailure => ?_, fun hfires => ?_, ?_⟩
  · have hends := hfailure.endsIn (c.heeds_process fuel entry args) hfatal
    exact ⟨hends, fun outcome houtcome => hends.result_of_run houtcome⟩
  · exact ⟨isFatal_of_fires hfires, fun bound rest => course_block_of_fires hfires rest⟩
  · intro globals fuel name f block args hf hargs hblock
    refine ⟨fun notes r => ?_, fun frame e => frame.eval_failed e⟩
    exact callFlow_course_iff hf hargs hblock

end Context

def stopInstr : Instr := .mk 2 (.abort (some (.literal (.str "stop")))) []

/-- A flow that stops inside another; both have failure blocks. -/
def stopUnit : CompiledUnit where
  flows := [
    ("f", { name := "f", params := [], line := 4, body := [.mk 5 (.runFlow none "g" []) []],
            onFailure := some [.mk 6 (.ret (.literal (.nat 2))) []] }),
    ("g", { name := "g", params := [], line := 1, body := [stopInstr],
            onFailure := some [.mk 3 (.ret (.literal (.nat 1))) []] })]
  hash := ""
  listing := default
  sourceMap := ⟨"unit", "main.wv", []⟩

/-- The abort of the inner flow passes both failure blocks. -/
theorem Context.abort_ends_run_stop : ∃ f block outcome, (Machine.run .steady 2 (Machine.start ()
      (process { unit := stopUnit } 40 (.flow "f") []).run)).AtFailure stopInstr (.aborted "stop") ∧
    (Machine.run .steady 2 (Machine.start ()
      (process { unit := stopUnit } 40 (.flow "f") []).run)).EndsIn .steady (.aborted "stop") ∧
    (run { unit := stopUnit } .steady () 40 (.flow "f") []).outcome = some outcome ∧
    RunFault.Ends (.aborted "stop") outcome ∧
    (∀ calls bound frame, ((execBlock { unit := stopUnit } calls bound [stopInstr]).run.run frame).Course
      [.failed stopInstr (.aborted "stop")] (.error ⟨.aborted "stop", some ⟨2, none⟩⟩, frame)) ∧
    stopUnit.flows.get? "f" = some f ∧ f.params = [] ∧ f.onFailure = some block ∧
    ∀ notes r, (callFlow { unit := stopUnit } 40 "f" []).run.Course notes r ↔ ∃ told,
      Scene.BodyCourse { unit := stopUnit } (calls { unit := stopUnit } 39) 39 f block [] told r ∧
        notes = .event (.flowStarted "f") :: (told ++ farewell "f" r) := by
  have hat : (Machine.run .steady 2 (Machine.start ()
      (process { unit := stopUnit } 40 (.flow "f") []).run)).AtFailure stopInstr (.aborted "stop") :=
    ⟨rfl, _, _, _, rfl, rfl, rfl, mem_singleton_self _⟩
  have hover : (run { unit := stopUnit } .steady () 40 (.flow "f") []).outcome.isSome = true := by
    decide +kernel
  obtain ⟨outcome, houtcome⟩ := Option.isSome_iff_exists.1 hover
  obtain ⟨hends, hfires, hflow⟩ := abort_ends_run { unit := stopUnit }
  obtain ⟨hend, houtcomes⟩ := hends .steady () 40 (.flow "f") [] 2 rfl hat
  have hf : stopUnit.flows.get? "f" = some _ := rfl
  refine ⟨_, _, outcome, hat, hend, houtcome, houtcomes outcome houtcome, fun calls bound frame => ?_,
    hf, rfl, rfl, (hflow [] 39 hf (.inr rfl) rfl).1⟩
  have htext : Term.eval frame.bindings (.literal (.str "stop")) = .ok (.str "stop") := by rw [Term.eval]
  have hfire : stopInstr.op.Fires calls frame [] (.aborted "stop") frame := .abortWith htext
  exact (hfires hfire).2 bound []

end Workflow
