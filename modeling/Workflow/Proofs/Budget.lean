import Workflow.Proofs.Asking
import Workflow.Proofs.Sequel
import Workflow.Run.Basic

/-!
How many requests an agent makes. `Process.Spares` says that a process gets along with so many requests on every
way, and how many it leaves. So the requests of an agent are bounded by its turns, the attempts of its retry
policy and the requests of the agents below it, as `Context.requestBound` adds them up. A process with such a
bound comes to an end, whatever the client answers: it runs as the only task of its machine, and each time less
of it is left.
-/

namespace Workflow

open Machine Limit Context

variable {p : Process Outcome} {time : Time}

namespace Process

variable {α β : Type} {rest : α → Nat} {p : Process α}

/-- Of so many requests a process leaves some, depending on its result, whatever the course of events. It has no
branches. -/
def Spares : {α : Type} → (α → Nat) → Nat → Process α → Prop
  | _, rest, n, done a => rest a ≤ n
  | _, _, _, stuck => False
  | _, rest, n, tell _ next => (next ()).Spares rest n
  | _, rest, n, ask _ next => ∃ k, n = k + 1 ∧ ∀ reply, (next reply).Spares rest k
  | _, rest, n, sleep _ next => (next ()).Spares rest n
  | _, rest, n, within _ body next =>
    ∃ i j, i + j ≤ n ∧ body.Spares (fun _ => 0) i ∧ ∀ o, (next o).Spares rest j
  | _, _, _, parallel _ _ _ => False

/-- A process that is given more requests than it needs leaves them to what comes behind it. -/
lemma Spares.bind_add {rest' : β → Nat} {f : α → Process β} {k : Nat}
    (hf : ∀ a n, rest a + k ≤ n → (f a).Spares rest' n) :
    ∀ {n n' : Nat}, n + k ≤ n' → p.Spares rest n → (p >>= f).Spares rest' n' := by
  induction p with
  | done a => exact fun hle h => hf a _ (Nat.le_trans (Nat.add_le_add_right h k) hle)
  | stuck | parallel count branch next _ _ => exact fun _ h => h
  | tell notes next ih | sleep time next ih => exact fun hle h => ih () hf hle h
  | ask request next ih =>
    rintro _ n' hle ⟨n, rfl, h⟩
    obtain ⟨m, rfl⟩ : ∃ m, n' = m + 1 := ⟨n' - 1, by omega⟩
    exact ⟨m, rfl, fun reply => ih reply hf (by omega) (h reply)⟩
  | within limit body next _ ih =>
    rintro n n' hle ⟨i, j, hij, hbody, h⟩
    exact ⟨i, j + k, by omega, hbody, fun o => ih o hf .refl (h o)⟩

lemma Spares.mono {rest' : α → Nat} (hrest : ∀ a, rest' a ≤ rest a) (hle : n ≤ n') (h : p.Spares rest n) :
    p.Spares rest' n' := by
  rw [← p.bind_done]
  exact h.bind_add (k := 0) (fun a _ => Nat.le_trans (hrest a)) hle

lemma Spares.add (k : Nat) (h : p.Spares rest n) : p.Spares (fun a => rest a + k) (n + k) := by
  rw [← p.bind_done]
  exact h.bind_add (fun _ _ => id) .refl

lemma Spares.bind {rest' : β → Nat} {f : α → Process β} (h : p.Spares rest n)
    (hf : ∀ a, (f a).Spares rest' (rest a)) : (p >>= f).Spares rest' n :=
  h.bind_add (k := 0) (fun a _ hle => (hf a).mono (fun _ => .refl) hle) .refl

end Process

/-! ### Processes that may fail -/

namespace Act

variable {α β : Type} {x : Act α}

/-- Of so many requests a process leaves some; nothing has to be left when it fails. -/
def Spares (rest : α → Nat) (n : Nat) (x : Act α) : Prop :=
  x.run.Spares (fun r => match r with
    | .ok a => rest a
    | .error _ => 0) n

variable {rest : α → Nat} {rest' : β → Nat} {n : Nat}

lemma spares_pure {a : α} (h : rest a ≤ n) : Spares rest n (pure a) := h

lemma spares_fail (fault : RunFault) : Spares rest n (fail fault : Act α) := Nat.zero_le n

lemma spares_lift {p : Process α} (h : p.Spares rest n) : Spares rest n (liftM p) :=
  h.bind fun _ => .refl

lemma spares_emit (e : Event) : Spares (fun _ => n) n (liftM (Process.emit e)) :=
  spares_lift (p := Process.emit e) .refl

lemma spares_ofExcept (x : Except RunFault α) : Spares (fun _ => n) n (ofExcept x) := by
  cases x with
  | ok a => exact spares_pure .refl
  | error fault => exact spares_fail fault

lemma Spares.bind {k : α → Act β} (hx : Spares rest n x) (hk : ∀ a, Spares rest' (rest a) (k a)) :
    Spares rest' n (x >>= k) := by
  refine Process.Spares.bind hx fun r => ?_
  cases r with
  | ok a => exact hk a
  | error e => exact Nat.zero_le _

lemma Spares.mono {m : Nat} (h : Spares rest n x) {rest' : α → Nat} (hrest : ∀ a, rest' a ≤ rest a)
    (hle : n ≤ m) : Spares rest' m x := by
  refine Process.Spares.mono (fun r => ?_) hle h
  cases r with
  | ok a => exact hrest a
  | error e => exact .refl

lemma Spares.add (h : Spares rest n x) (k : Nat) : Spares (fun a => rest a + k) (n + k) x := by
  refine Process.Spares.mono (fun r => ?_) .refl (Process.Spares.add k h)
  cases r with
  | ok a => exact .refl
  | error e => exact Nat.zero_le _

lemma talking_spares : Talking fun x => ∀ n, Spares (fun _ => n) n x where
  value _ _ := spares_pure .refl
  fault _ _ _ := spares_fail _
  chain hx hk n := (hx n).bind fun a => hk a n
  event _ _ := spares_emit _

end Act

/-! ### Requests of an agent -/

namespace Context

/-- How often a model is asked in one turn of an agent, at most. -/
def tries (c : Context) (spec : AgentSpec) : Nat :=
  match c.retry? spec.retry with
  | some policy => max policy.attempts 1
  | none => 1

mutual

/-- How many requests the top of a hierarchy makes, at most: in each turn its own and those of a tool, and in
the end those of a delegate. -/
def requestBound (c : Context) : Hierarchy → Nat
  | .node spec delegates tools =>
    c.settings.maxTurns * (c.tries spec + c.maxRequestBound tools) + c.maxRequestBound delegates

def maxRequestBound (c : Context) : List Hierarchy → Nat
  | [] => 0
  | h :: rest => max (c.requestBound h) (c.maxRequestBound rest)

end

open Act (Spares spares_pure spares_fail spares_emit spares_ofExcept talking_spares)

variable {c : Context} {guard : Guard} {s : Speaker} {n : Nat}

lemma spares_request (r : Request) : Spares (fun _ => n) (n + 1) (liftM (Process.request r)) :=
  Act.spares_lift (p := Process.request r) ⟨n, rfl, fun _ => .refl⟩

lemma spares_completeFrom (policy : RetryPolicy) (r : Request) : ∀ left attempt : Nat,
    Spares (fun _ => n) (left + 1 + n) (c.completeFrom policy r attempt left)
  | 0, attempt => by
    rw [Nat.zero_add, Nat.add_comm]
    refine (spares_request r).bind fun reply => ?_
    cases reply with
    | ok reply => exact spares_pure .refl
    | error e => exact spares_fail _
  | left + 1, attempt => by
    have hwait : Spares (fun _ => left + 1 + n) (left + 1 + n)
        (liftM (Process.wait (policy.delay attempt c.settings.retryBase))) :=
      Act.spares_lift (p := Process.wait _) .refl
    rw [Nat.add_right_comm]
    refine (spares_request r).bind fun reply => ?_
    cases reply with
    | ok reply => exact spares_pure (Nat.le_add_left _ _)
    | error e => exact hwait.bind fun _ => spares_completeFrom policy r left (attempt + 1)

lemma spares_complete (spec : AgentSpec) (r : Request) :
    Spares (fun _ => n) (c.tries spec + n) (c.complete (c.retry? spec.retry) r) := by
  unfold complete tries
  cases c.retry? spec.retry with
  | none => exact spares_completeFrom default r 0 1
  | some policy =>
    refine (spares_completeFrom policy r (policy.attempts - 1) 1).mono (fun _ => .refl) ?_
    dsimp only
    omega

end Context

def Guard.Idle (guard : Guard) : Prop :=
  ∀ event text, event ≠ .start → ∀ n, (guard event text).Spares (fun _ => n) n

/-- What runs an agent makes so many requests at most. -/
def Invoke.Within (n : Nat) (invoke : Invoke) : Prop :=
  ∀ start k, (invoke start).Spares (fun _ => k) (n + k)

/-- Agents that a speaker uses as tools or hands over to make so many requests at most. -/
structure Speaker.Within (tool delegate : Nat) (s : Speaker) : Prop where
  tool : ∀ {name invoke}, s.tool? name = some invoke → Invoke.Within tool invoke
  delegate : ∀ {name invoke}, s.delegate? name = some invoke → Invoke.Within delegate invoke

namespace Context

open Act (Spares spares_pure spares_fail spares_emit spares_ofExcept talking_spares)

variable {c : Context} {guard : Guard} {s : Speaker} {n tool delegate : Nat}

lemma spares_callTool (hguard : guard.Idle) (hs : s.Within tool delegate) (name input : String) :
    Spares (fun _ => n) (tool + n) (callTool guard s name input) := by
  unfold callTool
  split
  · exact spares_pure (Nat.le_add_left _ _)
  · next invoke hinvoke =>
    refine (hguard .toolCall input nofun _).bind fun guarded => (spares_emit _).bind fun _ => ?_
    refine (hs.tool hinvoke _ n).bind fun answer => (hguard .toolResult _ nofun _).bind fun result => ?_
    exact (spares_emit _).bind fun _ => spares_pure .refl

/-- What has to be left after a turn: so many requests if the conversation goes on. -/
def leftAfter (n : Nat) : Conversation ⊕ Answer → Nat
  | .inl _ => n
  | .inr _ => 0

lemma leftAfter_le (n : Nat) (r : Conversation ⊕ Answer) : leftAfter n r ≤ n := by
  cases r with
  | inl v => exact .refl
  | inr answer => exact Nat.zero_le _

lemma spares_follow (hguard : guard.Idle) (hs : s.Within tool delegate) (hdelegate : delegate ≤ n)
    (v : Conversation) (reply : Reply) : Spares (leftAfter n) (tool + n) (c.follow guard s v reply) := by
  unfold follow
  split
  · exact (spares_callTool hguard hs _ _).bind fun _ => spares_pure .refl
  · split
    · next invoke hinvoke =>
      refine (spares_emit _).bind fun _ => ?_
      have hrun := (hs.delegate hinvoke (.transfer v.messages) 0).mono (fun _ => .refl)
        (show delegate + 0 ≤ tool + n by omega)
      exact hrun.bind fun _ => spares_pure .refl
    · exact spares_pure (Nat.le_add_left _ _)
  · exact (talking_spares.settled hguard c s v reply.content n).mono (leftAfter_le n) (Nat.le_add_left _ _)

lemma spares_turn (hguard : guard.Idle) (hs : s.Within tool delegate) (hdelegate : delegate ≤ n) (v : Conversation) :
    Spares (leftAfter n) (c.tries s.spec + (tool + n)) (c.turn guard s v) := by
  refine (spares_complete s.spec _).bind fun reply => ?_
  dsimp only
  split
  · exact (spares_emit _).bind fun _ => spares_follow hguard hs hdelegate v reply
  · exact spares_follow hguard hs hdelegate v reply

lemma spares_turns (hguard : guard.Idle) (hs : s.Within tool delegate) : ∀ (left : Nat) (v : Conversation),
    Spares (fun _ => 0) (left * (c.tries s.spec + tool) + delegate) (c.turns guard s left v)
  | 0, _ => spares_fail _
  | left + 1, v => by
    have hsum : (left + 1) * (c.tries s.spec + tool) + delegate =
        c.tries s.spec + (tool + (left * (c.tries s.spec + tool) + delegate)) := by
      rw [Nat.succ_mul]
      omega
    rw [hsum]
    refine (spares_turn hguard hs (Nat.le_add_left _ _) v).bind fun result => ?_
    cases result with
    | inl v => exact spares_turns hguard hs left v
    | inr answer => exact spares_pure .refl

lemma spares_converse (hguard : guard.Idle) (bindings : Table Json) (spec : AgentSpec) (tools : List ToolDescriptor)
    (htool : ∀ {name invoke}, tool? name = some invoke → Invoke.Within tool invoke)
    (hdelegate : ∀ {name invoke}, delegate? name = some invoke → Invoke.Within delegate invoke) (start : Opening) :
    Spares (fun _ => 0) (c.settings.maxTurns * (c.tries spec + tool) + delegate)
      (c.converse guard bindings spec tools delegate? tool? start) := by
  refine (spares_ofExcept _).bind fun p => (spares_ofExcept _).bind fun m => ?_
  refine (spares_ofExcept _).bind fun schema => (talking_spares.openWith hguard start _).bind fun _ => ?_
  refine (spares_emit _).bind fun _ => ?_
  exact spares_turns (s := ⟨spec, p, m, schema, tools, delegate?, tool?⟩) hguard ⟨htool, hdelegate⟩ _ _

lemma spares_limited (agent : String) (limit : Option Duration) (h : Spares (fun _ => 0) n body) (k : Nat) :
    Spares (fun _ => k) (n + k) (limited agent limit body) := by
  cases limit with
  | none => exact (h.add k).mono (fun _ => Nat.le_add_left _ _) .refl
  | some limit =>
    refine ⟨n, k, .refl, Process.Spares.mono (fun _ => Nat.zero_le _) .refl h, fun o => ?_⟩
    rcases o with _ | _ | _
    · exact Nat.zero_le _
    · exact Nat.zero_le _
    · exact .refl

mutual

theorem within_invoke (hguard : guard.Idle) (bindings : Table Json) : ∀ h : Hierarchy,
    Invoke.Within (c.requestBound h) (c.invoke guard bindings h)
  | .node spec delegates tools => by
    intro start k
    rw [invoke, requestBound]
    refine spares_limited _ _ (spares_converse hguard bindings spec _ ?_ ?_ start) k
    · exact fun hinvoke => within_invokeNamed hguard bindings tools hinvoke
    · exact fun hinvoke => within_invokeNamed hguard bindings delegates hinvoke

theorem within_invokeNamed (hguard : guard.Idle) (bindings : Table Json) : ∀ (hs : List Hierarchy)
    {name invoke}, c.invokeNamed guard bindings hs name = some invoke → Invoke.Within (c.maxRequestBound hs) invoke
  | [], name, invoke, hinvoke => by
    rw [invokeNamed] at hinvoke
    cases hinvoke
  | h :: rest, name, invoke, hinvoke => by
    intro start k
    rw [invokeNamed] at hinvoke
    rw [maxRequestBound]
    split at hinvoke
    · cases hinvoke
      refine (within_invoke hguard bindings h start k).mono (fun _ => .refl) ?_
      exact Nat.add_le_add_right (Nat.le_max_left _ _) k
    · refine (within_invokeNamed hguard bindings rest hinvoke start k).mono (fun _ => .refl) ?_
      exact Nat.add_le_add_right (Nat.le_max_right _ _) k

end

lemma spares_runAgent (hguard : guard.Idle) (hbuild : Hierarchy.build? c.unit.agents name = some h)
    (args : List Json) (bindings : Table Json) :
    Spares (fun _ => 0) (c.requestBound h) (c.runAgent guard name args bindings) := by
  unfold runAgent
  rw [hbuild]
  have hnote : Spares (fun _ => c.requestBound h) (c.requestBound h)
      (liftM (Process.note (.built name))) := Act.spares_lift (p := Process.note _) .refl
  exact hnote.bind fun _ => within_invoke hguard bindings h (.input (joinArgs args)) 0

end Context

/-! ### Machines with one task -/

namespace Machine

variable {σ : Type} {m : Machine σ} {c : Client σ} {limits rest : List Limit} {l : Limit} {n k : Nat}

/-- The first task is the only one that was ever started, and no turn is due. -/
structure Alone (m : Machine σ) : Prop where
  queue : m.queue = []
  tasks : m.tasks = [] ∨ ∃ t, m.tasks = [t] ∧ t.id = 0
  result : m.result = none
  halted : m.halted = false

/-- The only task runs. -/
structure Runs (limits : List Limit) (p : Process Outcome) (m : Machine σ) : Prop extends m.Alone where
  running : m.running = some ⟨0, none, limits, p⟩

/-- A machine comes to a result and makes so many requests at most until then. -/
def Halts (c : Client σ) (n : Nat) (m : Machine σ) : Prop :=
  ∃ steps o, (run c steps m).result = some o ∧ (run c steps m).requests.length ≤ m.requests.length + n

lemma Halts.mono (h : m.Halts c n) (hle : n ≤ k) : m.Halts c k := by
  obtain ⟨steps, o, ho, hrequests⟩ := h
  exact ⟨steps, o, ho, by omega⟩

lemma isOver_eq_false (hresult : m.result = none) (hhalted : m.halted = false) : m.isOver = false := by
  rw [isOver, hresult, hhalted]
  rfl

lemma Alone.isOver (h : m.Alone) : m.isOver = false := isOver_eq_false h.result h.halted

lemma Halts.of_step (hover : m.isOver = false) (hstep : m.step c = m')
    (hrequests : m'.requests.length + n ≤ m.requests.length + k) (h : m'.Halts c n) : m.Halts c k := by
  obtain ⟨steps, o, ho, hsteps⟩ := h
  refine ⟨steps + 1, o, ?_⟩
  rw [run_succ steps hover, hstep]
  exact ⟨ho, by omega⟩

/-- The machine comes to a result with so many requests from wherever a limit lets the task go on. -/
def EndsAfter (c : Client σ) (n : Nat) : List Limit → Prop
  | [] => True
  | l :: rest => (∀ o (m : Machine σ), m.Runs rest (l.next o) → m.Halts c n) ∧ EndsAfter c n rest

lemma EndsAfter.mono (hle : n ≤ k) : ∀ {limits : List Limit}, EndsAfter c n limits → EndsAfter c k limits
  | [], _ => trivial
  | _ :: _, ⟨hfirst, hrest⟩ => ⟨fun o m hm => (hfirst o m hm).mono hle, hrest.mono hle⟩

lemma EndsAfter.expired {now : Time} : ∀ {limits}, EndsAfter c n limits →
    expired? now limits = some (l, rest) → ∀ (m : Machine σ), m.Runs rest (l.next none) → m.Halts c n
  | [], _, h => by cases h
  | first :: others, ⟨hfirst, hothers⟩, h => by
    unfold expired? at h
    split at h
    · cases h
      exact hfirst none
    · exact hothers.expired h

lemma exists_expired {now : Time} : ∀ {limits : List Limit}, now ∈ limits.map (·.deadline) →
    ∃ l rest, expired? now limits = some (l, rest)
  | [], h => by cases h
  | first :: others, h => by
    unfold expired?
    split
    · exact ⟨first, others, rfl⟩
    · next hlate =>
      rw [List.map_cons] at h
      rcases List.mem_cons.1 h with rfl | h
      · exact absurd .refl hlate
      · exact exists_expired h

/-- The only task waits for a time. -/
structure Waits (limits : List Limit) (time : Time) (p : Process Outcome) (m : Machine σ) : Prop extends m.Alone where
  running : m.running = none
  task : m.tasks = [⟨0, none, limits, .clock time p⟩]

lemma requests_suspend (id : Nat) (parent : Option Nat) (limits : List Limit) (w : Wait) :
    (m.suspend id parent limits w).requests = m.requests := by
  unfold suspend
  split
  · cases w <;> rfl
  · rfl

lemma waits_suspend (h : m.Alone) (hlimits : expired? m.now limits = none) (p : Process Outcome) :
    (m.suspend 0 none limits (.clock time p)).Waits limits time p := by
  have heq : m.suspend 0 none limits (.clock time p) =
      { m with running := none, tasks := [⟨0, none, limits, .clock time p⟩] } := by
    unfold suspend
    rw [hlimits]
    rcases h.tasks with htasks | ⟨t, htasks, hid⟩
    · simp [htasks]
    · simp [htasks, hid]
  rw [heq]
  exact ⟨⟨h.queue, .inr ⟨_, rfl, rfl⟩, h.result, h.halted⟩, rfl, rfl⟩

lemma runs_suspend (h : m.Alone) (hlimits : expired? m.now limits = some (l, rest))
    (p : Process Outcome) : (m.suspend 0 none limits (.clock time p)).Runs rest (l.next none) := by
  unfold suspend
  rw [hlimits]
  exact ⟨{ h with }, rfl⟩

lemma Waits.jump (h : m.Waits limits time p) :
    ∃ now ∈ time :: limits.map (·.deadline), m.step c = { m with now := now, queue := [0] } := by
  have htimers : m.tasks.flatMap Task.timers = time :: limits.map (·.deadline) := by
    rw [h.task, List.flatMap_singleton]
    rfl
  cases hmin : (time :: limits.map (·.deadline)).min? with
  | none => cases hmin
  | some now =>
    have hmem : now ∈ time :: limits.map (·.deadline) := List.min?_mem hmin
    have hdue : (⟨0, none, limits, .clock time p⟩ : Task).timers.any (· ≤ now) = true :=
      List.any_eq_true.2 ⟨now, hmem, decide_eq_true (Nat.le_refl now)⟩
    have hqueue : (m.tasks.filter fun t => t.timers.any (· ≤ now)).map (·.id) = [0] := by
      rw [h.task, List.filter_cons, if_pos hdue]
      rfl
    refine ⟨now, hmem, ?_⟩
    unfold step
    rw [h.running, h.queue]
    unfold Machine.jump
    dsimp only
    rw [htimers, hmin]
    dsimp only
    rw [hqueue, h.running]

lemma Waits.wake (h : m.Waits limits time p) (now : Time) : step c { m with now := now, queue := [0] } =
      if time ≤ now then
        { m with now := now, queue := [], running := some ⟨0, none, limits, p⟩ }
      else suspend { m with now := now, queue := [] } 0 none limits (.clock time p) := by
  unfold step
  rw [h.running]
  dsimp only
  rw [h.task, List.find?_cons_of_pos rfl]
  rfl

lemma Waits.halts (h : m.Waits limits time p) (hlimits : EndsAfter c n limits)
    (hp : ∀ m : Machine σ, m.Runs limits p → m.Halts c n) : m.Halts c n := by
  obtain ⟨now, hnow, hjump⟩ := h.jump (c := c)
  have halone : Alone { m with now := now, queue := [] } := ⟨rfl, h.tasks, h.result, h.halted⟩
  have hwake := h.wake (c := c) now
  refine .of_step (n := n) h.isOver hjump .refl ?_
  by_cases hdue : time ≤ now
  · rw [if_pos hdue] at hwake
    exact .of_step h.isOver hwake .refl (hp _ ⟨⟨rfl, h.tasks, h.result, h.halted⟩, rfl⟩)
  · rw [if_neg hdue] at hwake
    have hdeadline : now ∈ limits.map (·.deadline) := by
      rcases List.mem_cons.1 hnow with rfl | hnow
      · exact absurd .refl hdue
      · exact hnow
    obtain ⟨l, rest, hexpired⟩ := exists_expired hdeadline
    refine .of_step h.isOver hwake ?_ (hlimits.expired hexpired _ (runs_suspend halone hexpired p))
    exact Nat.le_of_eq (congrArg (·.length + n) (requests_suspend ..))

lemma halts_suspend (h : m.Alone) (hlimits : EndsAfter c n limits)
    (hp : ∀ m : Machine σ, m.Runs limits p → m.Halts c n) :
    (m.suspend 0 none limits (.clock time p)).Halts c n := by
  cases hexpired : expired? m.now limits with
  | some due => exact hlimits.expired hexpired _ (runs_suspend h hexpired p)
  | none => exact (waits_suspend h hexpired p).halts hlimits hp

lemma Runs.step (h : m.Runs limits p) : m.step c = m.advance c ⟨0, none, limits, p⟩ := by
  unfold Machine.step
  rw [h.running]

/-- The only task goes on at once or after a while, in a machine that has made some more requests. -/
lemma Halts.of_pause {m' : Machine σ} {q : Process Outcome} (hover : m.isOver = false)
    (hstep : m.step c = if delay = 0 then { m' with running := some ⟨0, none, limits, q⟩ }
      else m'.suspend 0 none limits (.clock time q)) (halone : m'.Alone)
    (hrequests : m'.requests.length + n ≤ m.requests.length + k) (hlimits : EndsAfter c n limits)
    (hq : ∀ m : Machine σ, m.Runs limits q → m.Halts c n) : m.Halts c k := by
  split at hstep
  · exact .of_step hover hstep hrequests (hq _ ⟨{ halone with }, rfl⟩)
  · refine .of_step hover hstep ?_ (halts_suspend halone hlimits hq)
    rwa [requests_suspend]

lemma Runs.halts_ask {request : Request} {next : Except ModelError Reply → Process Outcome}
    (h : m.Runs limits (.ask request next)) (hlimits : EndsAfter c n limits)
    (hnext : ∀ reply (m : Machine σ), m.Runs limits (next reply) → m.Halts c n) : m.Halts c (n + 1) := by
  rcases hanswer : c.answer m.client request with ⟨client, delay, reply⟩
  have hstep : m.step c = if delay = 0
      then { m with client := client, requests := request :: m.requests,
                    running := some ⟨0, none, limits, next reply⟩ }
      else suspend { m with client := client, requests := request :: m.requests } 0 none limits
        (.clock (Duration.after m.now delay) (next reply)) := by
    rw [h.step]
    unfold advance
    simp only [hanswer]
    rfl
  refine .of_pause h.isOver hstep { h with } ?_ hlimits (hnext reply)
  rw [List.length_cons]
  omega

lemma Runs.halts_sleep {next : Unit → Process Outcome} (h : m.Runs limits (.sleep time next))
    (hlimits : EndsAfter c n limits) (hnext : ∀ m : Machine σ, m.Runs limits (next ()) → m.Halts c n) :
    m.Halts c n :=
  .of_pause h.isOver h.step h.toAlone .refl hlimits hnext

lemma Runs.halts_done (h : m.Runs limits (.done o)) (hlimits : EndsAfter c n limits) : m.Halts c n := by
  cases limits with
  | nil =>
    have hstep : (m.step c).log = (m.notes, some o) := by
      rw [h.step]
      rfl
    refine ⟨1, o, ?_⟩
    rw [run_succ 0 h.isOver]
    refine ⟨congrArg Prod.snd hstep, ?_⟩
    rw [h.step]
    exact Nat.le_add_right _ _
  | cons l rest =>
    have hstep : m.step c = { m with running := some ⟨0, none, rest, l.next (some o)⟩ } := h.step
    refine .of_step h.isOver hstep .refl (hlimits.1 (some o) _ ?_)
    exact ⟨{ h with }, rfl⟩

lemma halts_bind {α : Type} {p : Process α} : ∀ {left : α → Nat} {n k : Nat} {f : α → Process Outcome}
    {limits : List Limit} {m : Machine σ}, p.Spares left n → EndsAfter c k limits →
    (∀ a (m : Machine σ), m.Runs limits (f a) → m.Halts c (left a + k)) →
    m.Runs limits (p.bind f) → m.Halts c (n + k) := by
  induction p with
  | done a =>
    intro left n k f limits m hp _ hf hm
    exact (hf a m hm).mono (Nat.add_le_add_right hp k)
  | stuck | parallel count branch next _ _ => exact fun hp => hp.elim
  | tell notes next ih =>
    intro left n k f limits m hp hlimits hf hm
    have hstep : m.step c = { m with notes := notes.reverse ++ m.notes,
                                     running := some ⟨0, none, limits, (next ()).bind f⟩ } := hm.step
    refine .of_step hm.isOver hstep .refl (ih () hp hlimits hf ?_)
    exact ⟨{ hm with }, rfl⟩
  | ask request next ih =>
    rintro left _ k f limits m ⟨n, rfl, hp⟩ hlimits hf hm
    rw [Nat.add_right_comm]
    refine hm.halts_ask (hlimits.mono (Nat.le_add_left k n)) fun reply m' hm' => ?_
    exact ih reply (hp reply) hlimits hf hm'
  | sleep time next ih =>
    intro left n k f limits m hp hlimits hf hm
    exact hm.halts_sleep (hlimits.mono (Nat.le_add_left k n)) fun m' hm' => ih () hp hlimits hf hm'
  | within limit body next ihbody ih =>
    rintro left n k f limits m ⟨i, j, hij, hbody, hnext⟩ hlimits hf hm
    have hinside : EndsAfter c (j + k) (⟨Duration.after m.now limit, fun o => (next o).bind f⟩ :: limits) :=
      ⟨fun o m' hm' => ih o (hnext o) hlimits hf hm', hlimits.mono (Nat.le_add_left k j)⟩
    have hstep : m.step c = { m with running := some ⟨0, none,
        ⟨Duration.after m.now limit, fun o => (next o).bind f⟩ :: limits, body.bind .done⟩ } := by
      rw [Process.bind_done]
      exact hm.step
    refine .of_step hm.isOver hstep ?_ (ihbody (f := .done) hbody hinside (fun o m' hm' => ?_) ?_)
    · dsimp only
      omega
    · rw [Nat.zero_add]
      exact hm'.halts_done hinside
    · exact ⟨{ hm with }, rfl⟩

lemma halts_start (client : σ) (h : p.Spares left n) : (start client p).Halts c n := by
  have hp : p.Spares (fun _ => 0) n := h.mono (fun _ => Nat.zero_le _) (Nat.le_refl n)
  have hnone : ∀ k, EndsAfter c k [] := fun _ => trivial
  refine halts_bind hp (hnone 0) (fun o m hm => Runs.halts_done (o := o) hm (hnone _)) ?_
  rw [Process.bind_done]
  exact ⟨⟨rfl, .inl rfl, rfl, rfl⟩, rfl⟩

end Machine

/-! ### Runs of agents -/

lemma Scene.idle_guardText {s : Scene} (h : ∀ event, event ≠ .start → s.unit.handler? event = none)
    (fuel : Nat) : Guard.Idle (s.guardText (fuel + 1)) := by
  intro event text hevent n
  rw [guardText, pass, h event hevent]
  exact Act.spares_pure (Nat.le_refl n)

/-- An agent of a unit without handlers of texts comes to an end, whatever the client answers, with no more
requests than the bound of its hierarchy. -/
theorem Scene.agent_requests_bounded {σ : Type} (s : Scene) (client : Client σ) (state : σ) (fuel : Nat)
    {name : String} {h : Hierarchy} (args : List Json) (bindings : Table Json)
    (hhandlers : ∀ event, event ≠ .start → s.unit.handler? event = none)
    (hbuild : Hierarchy.build? s.unit.agents name = some h) :
    ∃ steps outcome, ∀ more, (run client (steps + more) (start state
        (s.runAgent (s.guardText (fuel + 1)) name args bindings).run)).result = some outcome ∧
      (run client (steps + more) (start state
        (s.runAgent (s.guardText (fuel + 1)) name args bindings).run)).requests.length ≤ s.requestBound h := by
  have hspares := spares_runAgent (idle_guardText hhandlers fuel) hbuild args bindings
  obtain ⟨steps, outcome, hresult, hrequests⟩ := halts_start (c := client) state hspares
  refine ⟨steps, outcome, fun more => ?_⟩
  rw [run_add, run_of_result more hresult]
  refine ⟨hresult, Nat.le_trans hrequests ?_⟩
  exact Nat.le_of_eq (Nat.zero_add _)

/-- An agent that may ask three times in a turn, with a delegate and a tool. -/
def patientUnit : CompiledUnit where
  retries := [("r", ⟨"r", 3, .exponential⟩)]
  agents := [
    ("lead", { name := "lead", instruction := "p", retry := some "r", delegate := ["writer"], uses := ["critic"] }),
    ("writer", { name := "writer", instruction := "p" }),
    ("critic", { name := "critic", instruction := "p" })]
  hash := ""
  listing := default
  sourceMap := ⟨"unit", "main.wv", []⟩

/-- A client that answers after a second, and always wants the tool. -/
def Client.insistent : Client Unit :=
  ⟨fun _ _ => ((), .ofSeconds 1, .ok { content := "", action := some (.call "critic" "again") })⟩

/-- Ten turns of three attempts each, in which a tool may be asked ten times, and ten turns of a
delegate. -/
theorem Scene.agent_requests_bounded_patient : ∃ h steps outcome,
    (∀ event, event ≠ .start → patientUnit.handler? event = none) ∧
    Hierarchy.build? patientUnit.agents "lead" = some h ∧
    requestBound { unit := patientUnit } h = 10 * (3 + 10) + 10 ∧
    (run .insistent steps (start () (runAgent { unit := patientUnit }
      (Scene.guardText { unit := patientUnit } 1) "lead" [] []).run)).result = some outcome ∧
    (run .insistent steps (start () (runAgent { unit := patientUnit }
      (Scene.guardText { unit := patientUnit } 1) "lead" [] []).run)).requests.length ≤ 140 := by
  have hbuilt : (Hierarchy.build? patientUnit.agents "lead").any
      (fun h => requestBound { unit := patientUnit } h = 140) = true := by
    decide +kernel
  obtain ⟨h, hbuild, hbound⟩ := (Option.any_eq_true _ _).1 hbuilt
  have hhandlers : ∀ event, event ≠ .start → patientUnit.handler? event = none := fun _ _ => rfl
  obtain ⟨steps, outcome, hsteps⟩ := Scene.agent_requests_bounded { unit := patientUnit } .insistent ()
    0 [] [] hhandlers hbuild
  obtain ⟨hresult, hrequests⟩ := hsteps 0
  refine ⟨h, steps, outcome, hhandlers, hbuild, of_decide_eq_true hbound, hresult, ?_⟩
  exact Nat.le_trans hrequests (Nat.le_of_eq (of_decide_eq_true hbound))

end Workflow
