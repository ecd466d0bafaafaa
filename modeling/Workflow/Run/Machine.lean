import Workflow.Model.Client
import Workflow.Run.Process

/-!
The machine that runs processes: a pool of tasks, a queue of those that can go on, and a clock that jumps to the
next wake-up time when the queue is empty. Branches are tasks of their own; the first failure among them cancels
the rest. Whenever a task waits, the innermost of its time limits that is over ends what runs under it.
-/

namespace Workflow

/-- A point in time, in nanoseconds from the start. -/
abbrev Time := Nat

namespace Duration

/-- A wait that no clock can measure counts as thirty years. -/
def thirtyYears : Duration := .ofSeconds (86400 * 365 * 30)

def after (now : Time) (d : Duration) : Time :=
  if ofSeconds 0x8000000000000000 ≤ now + d then now + thirtyYears else now + d

end Duration

/-- A time limit on what a task does, and what comes after that. -/
structure Limit where
  deadline : Time
  next : Option Outcome → Process Outcome

/-- What a task waits for. -/
inductive Wait where
  /-- Its turn. -/
  | turn (next : Process Outcome)
  | clock (time : Time) (next : Process Outcome)
  /-- Branches, of which some have finished. -/
  | branches (ids : List Nat) (finished : List (Nat × Outcome)) (next : Except RunError (List Answer) → Process Outcome)

/-- A task that waits. -/
structure Task where
  id : Nat
  /-- The task that waits for it. -/
  parent : Option Nat
  /-- Its limits, the innermost first. -/
  limits : List Limit
  wait : Wait

/-- The task that runs. -/
structure Running where
  id : Nat
  parent : Option Nat
  limits : List Limit
  process : Process Outcome

/-- A machine with a client in some state. -/
structure Machine (σ : Type) where
  client : σ
  now : Time := 0
  /-- What was noted down, the latest first. -/
  notes : List Note := []
  /-- The requests that were made, the latest first. -/
  requests : List Request := []
  /-- Waiting tasks in the order in which they were started. -/
  tasks : List Task := []
  /-- Tasks whose turn comes, the next one first. -/
  queue : List Nat := []
  running : Option Running := none
  /-- Number of tasks started so far. -/
  started : Nat := 1
  result : Option Outcome := none
  /-- Nothing can go on any more. -/
  halted : Bool := false

/-- The innermost limit that is over, and those around it. -/
def Limit.expired? (now : Time) : List Limit → Option (Limit × List Limit)
  | [] => none
  | l :: rest => if l.deadline ≤ now then some (l, rest) else expired? now rest

/-- The times at which a task goes on, whatever else happens. -/
def Task.timers (t : Task) : List Time :=
  (match t.wait with
    | .clock time _ => [time]
    | _ => []) ++ t.limits.map (·.deadline)

def firstFailure? : List (Nat × Outcome) → Option RunError
  | [] => none
  | (_, .error e) :: _ => some e
  | (_, .ok _) :: rest => firstFailure? rest

def answerOf (finished : List (Nat × Outcome)) (id : Nat) : Option Answer :=
  match finished.lookup id with
  | some (.ok a) => some a
  | _ => none

/-- What the branches come to: the first failure, or all results in the order of the branches, once there are
all. -/
def joined? (ids : List Nat) (finished : List (Nat × Outcome)) : Option (Except RunError (List Answer)) :=
  match firstFailure? finished with
  | some e => some (.error e)
  | none => (ids.mapM (answerOf finished)).map .ok

namespace Machine

variable {σ : Type}

def start (client : σ) (p : Process Outcome) : Machine σ :=
  { client := client, running := some ⟨0, none, [], p⟩ }

def isOver (m : Machine σ) : Bool := m.result.isSome || m.halted

def go (m : Machine σ) (t : Running) (p : Process Outcome) : Machine σ :=
  { m with running := some { t with process := p } }

/-- Removes tasks with some ids, and the tasks that these have started. -/
def cancel (m : Machine σ) (ids : List Nat) : Machine σ :=
  let (_, kept) := m.tasks.foldl (fun (gone, kept) t =>
    if gone.contains t.id || t.parent.any gone.contains then (t.id :: gone, kept)
    else (gone, kept ++ [t])) (ids, [])
  { m with tasks := kept }

def cancelBranches (m : Machine σ) : Wait → Machine σ
  | .branches ids _ _ => m.cancel ids
  | _ => m

/-- The running task waits, unless a limit is over. -/
def suspend (m : Machine σ) (id : Nat) (parent : Option Nat) (limits : List Limit) (w : Wait) : Machine σ :=
  match Limit.expired? m.now limits with
  | some (l, rest) => { m.cancelBranches w with running := some ⟨id, parent, rest, l.next none⟩ }
  | none =>
    let t : Task := ⟨id, parent, limits, w⟩
    let known := m.tasks.any (·.id = id)
    { m with running := none,
             tasks := if known then m.tasks.map fun u => if u.id = id then t else u else m.tasks ++ [t] }

/-- Puts a task at the end of the queue, unless it is there. -/
def enqueue (m : Machine σ) (id : Nat) : Machine σ :=
  if m.queue.contains id then m else { m with queue := m.queue ++ [id] }

def report (branch : Nat) (o : Outcome) (t : Task) : Task :=
  match t.wait with
  | .branches ids finished next =>
    if ids.contains branch then { t with wait := .branches ids (finished ++ [(branch, o)]) next } else t
  | _ => t

def finish (m : Machine σ) (t : Running) (o : Outcome) : Machine σ :=
  let m := { m with running := none, tasks := m.tasks.filter (·.id ≠ t.id) }
  match t.parent with
  | none => { m with result := some o }
  | some p =>
    let tasks := m.tasks.map fun u => if u.id = p then report t.id o u else u
    { m with tasks := tasks }.enqueue p

def fork (m : Machine σ) (t : Running) (branches : List (Process Outcome))
    (next : Except RunError (List Answer) → Process Outcome) : Machine σ :=
  let ids := (List.range branches.length).map (m.started + ·)
  let tasks := (ids.zip branches).map fun (id, p) => (⟨id, some t.id, [], .turn p⟩ : Task)
  let m := m.suspend t.id t.parent t.limits (.branches ids [] next)
  match m.running with
  | some _ => m
  | none => { m with tasks := m.tasks ++ tasks, queue := m.queue ++ ids, started := m.started + branches.length }

def advance (c : Client σ) (m : Machine σ) (t : Running) : Machine σ :=
  match t.process with
  | .done o =>
    match t.limits with
    | l :: rest => { m with running := some { t with limits := rest, process := l.next (some o) } }
    | [] => m.finish t o
  | .stuck => { m with halted := true }
  | .tell notes next => { m with notes := notes.reverse ++ m.notes }.go t (next ())
  | .ask r next =>
    let (client, delay, answer) := c.answer m.client r
    let m := { m with client := client, requests := r :: m.requests }
    if delay = 0 then m.go t (next answer)
    else m.suspend t.id t.parent t.limits (.clock (Duration.after m.now delay) (next answer))
  | .sleep time next =>
    if time = 0 then m.go t (next ())
    else m.suspend t.id t.parent t.limits (.clock (Duration.after m.now time) (next ()))
  | .within limit body next =>
    let limits := ⟨Duration.after m.now limit, next⟩ :: t.limits
    { m with running := some { t with limits := limits, process := body } }
  | .parallel 0 _ next => m.go t (next (.ok []))
  | .parallel _ branch next => m.fork t (List.ofFn branch) next

def wake (m : Machine σ) (t : Task) : Machine σ :=
  let resume (m : Machine σ) (p : Process Outcome) : Machine σ :=
    { m with running := some ⟨t.id, t.parent, t.limits, p⟩ }
  let again := m.suspend t.id t.parent t.limits t.wait
  match t.wait with
  | .turn p => resume m p
  | .clock time p => if time ≤ m.now then resume m p else again
  | .branches ids finished next =>
    match joined? ids finished with
    | some r => resume (m.cancel ids) (next r)
    | none => again

/-- Lets the clock jump to the next time at which a task goes on. -/
def jump (m : Machine σ) : Machine σ :=
  match (m.tasks.flatMap Task.timers).min? with
  | none => { m with halted := true }
  | some time =>
    { m with now := time, queue := (m.tasks.filter fun t => t.timers.any (· ≤ time)).map (·.id) }

def step (c : Client σ) (m : Machine σ) : Machine σ :=
  match m.running with
  | some t => m.advance c t
  | none =>
    match m.queue with
    | id :: rest =>
      let m := { m with queue := rest }
      match m.tasks.find? (·.id = id) with
      | some t => m.wake t
      | none => m
    | [] => m.jump

/-- Runs a machine until it comes to an end, for so many steps at most. -/
def run (c : Client σ) : Nat → Machine σ → Machine σ
  | 0, m => m
  | fuel + 1, m => if m.isOver then m else run c fuel (m.step c)

end Machine

end Workflow
