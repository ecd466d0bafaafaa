import Workflow.Proofs.Machine

/-!
One process and then another, on a machine: it takes the same steps as a machine with the first process alone,
until that is done, and then goes on with the rest.
-/

namespace Workflow

open List

variable {t : Running} {k : Outcome → Process Outcome}

/-- What is left of a task under some limits, if the first task goes on with `k` at its end. -/
def Process.prolong (k : Outcome → Process Outcome) : Option Nat → List Limit → Process Outcome → Process Outcome
  | none, [], p => p.bind k
  | _, _, p => p

def Limit.prolong (k : Outcome → Process Outcome) (parent : Option Nat) : List Limit → List Limit
  | [] => []
  | l :: rest => ⟨l.deadline, fun o => (l.next o).prolong k parent rest⟩ :: prolong k parent rest

def Wait.prolong (k : Outcome → Process Outcome) (parent : Option Nat) (limits : List Limit) : Wait → Wait
  | .turn p => .turn (p.prolong k parent limits)
  | .clock time p => .clock time (p.prolong k parent limits)
  | .branches ids finished next => .branches ids finished fun r => (next r).prolong k parent limits

/-- A task that waits, if the first task goes on at its end. -/
def Task.prolong (k : Outcome → Process Outcome) (t : Task) : Task :=
  ⟨t.id, t.parent, Limit.prolong k t.parent t.limits, t.wait.prolong k t.parent t.limits⟩

/-- A task that runs, if the first task goes on at its end. -/
def Running.prolong (k : Outcome → Process Outcome) (t : Running) : Running :=
  ⟨t.id, t.parent, Limit.prolong k t.parent t.limits, t.process.prolong k t.parent t.limits⟩

/-- A machine whose first task goes on at its end. -/
def Machine.prolong {σ : Type} (k : Outcome → Process Outcome) (m : Machine σ) : Machine σ :=
  { m with tasks := m.tasks.map (Task.prolong k), running := m.running.map (Running.prolong k) }

/-! ### Steps -/

@[simp] lemma Task.id_prolong (t : Task) : (t.prolong k).id = t.id := rfl

@[simp] lemma Task.parent_prolong (t : Task) : (t.prolong k).parent = t.parent := rfl

lemma Limit.prolong_some (id : Nat) (limits : List Limit) : prolong k (some id) limits = limits := by
  induction limits with
  | nil => rfl
  | cons l rest ih => exact congrArg (l :: ·) ih

lemma Task.prolong_some {t : Task} {id : Nat} (h : t.parent = some id) : t.prolong k = t := by
  obtain ⟨number, parent, limits, w⟩ := t
  obtain rfl : parent = some id := h
  unfold prolong
  rw [Limit.prolong_some]
  cases w <;> rfl

lemma Limit.expired?_prolong (now : Time) (parent : Option Nat) (limits : List Limit) :
    expired? now (prolong k parent limits) = (expired? now limits).map fun (l, rest) =>
      (⟨l.deadline, fun o => (l.next o).prolong k parent rest⟩, prolong k parent rest) := by
  induction limits with
  | nil => rfl
  | cons l rest ih =>
    rw [prolong, expired?, expired?]
    split
    · rfl
    · exact ih

lemma Task.timers_prolong (t : Task) : (t.prolong k).timers = t.timers := by
  obtain ⟨id, parent, limits, w⟩ := t
  have hlimits : (Limit.prolong k parent limits).map (·.deadline) = limits.map (·.deadline) := by
    induction limits with
    | nil => rfl
    | cons l rest ih => exact congrArg (l.deadline :: ·) ih
  unfold timers
  cases w <;> exact congrArg (_ ++ ·) hlimits

lemma report_prolong (branch : Nat) (o : Outcome) (t : Task) :
    Machine.report branch o (t.prolong k) = (Machine.report branch o t).prolong k := by
  obtain ⟨id, parent, limits, w⟩ := t
  cases w with
  | branches ids finished next =>
    unfold Machine.report
    dsimp only [Task.prolong, Wait.prolong]
    split <;> rfl
  | _ => rfl

namespace Machine

variable {σ : Type} {m : Machine σ} {c : Client σ} {o : Outcome} {n : Note}

lemma survivors_prolong (gone : List Nat) (ts : List Task) :
    survivors gone (ts.map (Task.prolong k)) = (survivors gone ts).map (Task.prolong k) := by
  fun_induction survivors gone ts with
  | case1 => rfl
  | case2 gone t rest hgoes ih =>
    rw [map_cons, survivors, Task.id_prolong, Task.parent_prolong, if_pos hgoes]
    exact ih
  | case3 gone t rest hstays ih =>
    rw [map_cons, survivors, Task.id_prolong, Task.parent_prolong, if_neg hstays, ih]
    rfl

lemma cancel_prolong (ids : List Nat) : (m.prolong k).cancel ids = (m.cancel ids).prolong k := by
  rw [cancel_eq, cancel_eq]
  exact congrArg (fun tasks => { m.prolong k with tasks := tasks }) (survivors_prolong ids m.tasks)

lemma cancelBranches_prolong (parent : Option Nat) (limits : List Limit) (w : Wait) :
    (m.prolong k).cancelBranches (w.prolong k parent limits) = (m.cancelBranches w).prolong k := by
  cases w with
  | branches ids finished next => exact cancel_prolong ids
  | _ => rfl

lemma suspend_prolong (id : Nat) (parent : Option Nat) (limits : List Limit) (w : Wait) :
    (m.prolong k).suspend id parent (Limit.prolong k parent limits) (w.prolong k parent limits) =
      (m.suspend id parent limits w).prolong k := by
  have hnow : (m.prolong k).now = m.now := rfl
  unfold suspend
  rw [hnow, Limit.expired?_prolong]
  cases Limit.expired? m.now limits with
  | some due =>
    dsimp only [Option.map_some]
    rw [cancelBranches_prolong]
    rfl
  | none =>
    have hknown : (m.prolong k).tasks.any (·.id = id) = m.tasks.any (·.id = id) := by
      unfold prolong
      rw [any_map]
      rfl
    have hreplaced : (m.prolong k).tasks.map (fun u => if u.id = id then
          (⟨id, parent, Limit.prolong k parent limits, w.prolong k parent limits⟩ : Task) else u) =
        (m.tasks.map fun u => if u.id = id then ⟨id, parent, limits, w⟩ else u).map (Task.prolong k) := by
      unfold prolong
      rw [map_map, map_map]
      refine map_congr_left fun u _ => ?_
      rw [Function.comp_apply, Function.comp_apply, apply_ite (Task.prolong k)]
      rfl
    dsimp only [Option.map_none]
    rw [hknown]
    split
    · rw [hreplaced]
      rfl
    · unfold prolong
      rw [map_append]
      rfl

lemma finish_prolong {id : Nat} (h : t.parent = some id) (o : Outcome) :
    (m.prolong k).finish (t.prolong k) o = (m.finish t o).prolong k := by
  have htasks : ((m.prolong k).tasks.filter (·.id ≠ t.id)).map (fun u =>
        if u.id = id then report t.id o u else u) =
      ((m.tasks.filter (·.id ≠ t.id)).map fun u => if u.id = id then report t.id o u else u).map (Task.prolong k) := by
    unfold prolong
    rw [filter_map, map_map, map_map]
    refine map_congr_left fun u _ => ?_
    dsimp only [Function.comp_apply]
    rw [report_prolong, apply_ite (Task.prolong k)]
    rfl
  have hparent : (t.prolong k).parent = some id := h
  have hid : (t.prolong k).id = t.id := rfl
  unfold finish
  dsimp only
  rw [h, hparent, hid]
  dsimp only
  rw [htasks]
  unfold enqueue
  rw [apply_ite (Machine.prolong k)]
  rfl

lemma fork_prolong (t : Running) (branches : List (Process Outcome))
    (next : Except RunError (List Answer) → Process Outcome) :
    (m.prolong k).fork (t.prolong k) branches (fun r => (next r).prolong k t.parent t.limits) =
      (m.fork t branches next).prolong k := by
  unfold fork
  dsimp only
  have hsuspend : (m.prolong k).suspend (t.prolong k).id (t.prolong k).parent (t.prolong k).limits
      (.branches ((List.range branches.length).map ((m.prolong k).started + ·)) [] fun r =>
        (next r).prolong k t.parent t.limits) = _ :=
    suspend_prolong t.id t.parent t.limits (.branches ((List.range branches.length).map (m.started + ·)) [] next)
  rw [hsuspend]
  generalize m.suspend t.id t.parent t.limits _ = waiting
  obtain ⟨client, now, notes, requests, tasks, queue, running, started, result, halted⟩ := waiting
  cases running with
  | some u => rfl
  | none =>
    dsimp only [prolong, Option.map_none]
    rw [map_append, map_map]
    rfl

/-- What the first task comes to with the next step. -/
def ended? (m : Machine σ) : Option Outcome :=
  match m.running with
  | some ⟨_, none, [], .done o⟩ => some o
  | _ => none

lemma running_of_ended (h : m.ended? = some o) : ∃ id, m.running = some ⟨id, none, [], .done o⟩ := by
  unfold ended? at h
  split at h
  · next id _ hrunning =>
    cases h
    exact ⟨id, hrunning⟩
  · cases h

lemma running_prolong (k : Outcome → Process Outcome) (h : m.ended? = some o) :
    ∃ id, m.running = some ⟨id, none, [], .done o⟩ ∧ (m.prolong k).running = some ⟨id, none, [], k o⟩ := by
  obtain ⟨id, hrunning⟩ := running_of_ended h
  exact ⟨id, hrunning, congrArg (Option.map (Running.prolong k)) hrunning⟩

lemma advance_prolong (hrunning : m.running = some t) (h : m.ended? = none) :
    (m.prolong k).advance c (t.prolong k) = (m.advance c t).prolong k := by
  obtain ⟨id, parent, limits, process⟩ := t
  unfold advance
  cases process with
  | done o =>
    cases limits with
    | nil =>
      cases parent with
      | none =>
        unfold ended? at h
        rw [hrunning] at h
        cases h
      | some p => exact finish_prolong rfl o
    | cons l rest => cases parent <;> rfl
  | ask request next | sleep time next =>
    dsimp only
    rw [apply_ite (Machine.prolong k), ← suspend_prolong]
    cases parent <;> cases limits <;> rfl
  | parallel count branch next =>
    cases count with
    | zero => cases parent <;> cases limits <;> rfl
    | succ n =>
      refine Eq.trans ?_ (fork_prolong ⟨id, parent, limits, _⟩ (List.ofFn branch) next)
      cases parent <;> cases limits <;> rfl
  | _ => cases parent <;> cases limits <;> rfl

lemma wake_prolong (t : Task) : (m.prolong k).wake (t.prolong k) = (m.wake t).prolong k := by
  obtain ⟨id, parent, limits, w⟩ := t
  have hagain := @suspend_prolong k σ m id parent limits w
  unfold wake
  cases w with
  | turn p => rfl
  | clock time p =>
    dsimp only
    rw [apply_ite (Machine.prolong k), ← hagain]
    rfl
  | branches ids finished next =>
    dsimp only [Task.prolong, Wait.prolong] at hagain ⊢
    split
    · rw [cancel_prolong]
      rfl
    · exact hagain

lemma jump_prolong : (m.prolong k).jump = m.jump.prolong k := by
  have htimers : (m.prolong k).tasks.flatMap Task.timers = m.tasks.flatMap Task.timers := by
    unfold prolong
    rw [flatMap_map]
    exact congrArg (List.flatMap · m.tasks) (funext Task.timers_prolong)
  have hqueue : ∀ time : Time, (((m.prolong k).tasks.filter fun t => t.timers.any (· ≤ time)).map (·.id)) =
      (m.tasks.filter fun t => t.timers.any (· ≤ time)).map (·.id) := by
    intro time
    unfold prolong
    rw [filter_map, map_map]
    simp only [Function.comp_def, Task.timers_prolong, Task.id_prolong]
  unfold jump
  rw [htimers]
  split
  · rfl
  · rw [hqueue]
    rfl

lemma step_prolong (h : m.ended? = none) : (m.prolong k).step c = (m.step c).prolong k := by
  cases hrunning : m.running with
  | some t =>
    have hprolonged : (m.prolong k).running = some (t.prolong k) := congrArg (Option.map (Running.prolong k)) hrunning
    unfold step
    rw [hrunning, hprolonged]
    exact advance_prolong hrunning h
  | none =>
    have hprolonged : (m.prolong k).running = none := congrArg (Option.map (Running.prolong k)) hrunning
    have hsame : (m.prolong k).queue = m.queue := rfl
    unfold step
    rw [hrunning, hprolonged, hsame]
    dsimp only
    split
    · next id rest _ =>
      have hfind : (m.prolong k).tasks.find? (·.id = id) = (m.tasks.find? (·.id = id)).map (Task.prolong k) := by
        unfold prolong
        rw [List.find?_map]
        rfl
      rw [hfind]
      cases m.tasks.find? (·.id = id) with
      | some t => exact @wake_prolong k σ { m with queue := rest, running := none } t
      | none => rfl
    · exact jump_prolong

/-! ### The record of a run -/

/-- What a task that runs notes down with its next step. -/
def told (t : Running) : List Note :=
  match t.process with
  | .tell notes _ => notes
  | _ => []

def log (m : Machine σ) : List Note × Option Outcome := (m.notes, m.result)

lemma log_suspend (id : Nat) (parent : Option Nat) (limits : List Limit) (w : Wait) :
    (m.suspend id parent limits w).log = m.log := by
  unfold suspend
  split
  · cases w <;> rfl
  · rfl

lemma log_fork (t : Running) (branches : List (Process Outcome))
    (next : Except RunError (List Answer) → Process Outcome) : (m.fork t branches next).log = m.log := by
  unfold fork
  dsimp only
  split <;> exact log_suspend _ _ _ _

lemma log_wake (t : Task) : (m.wake t).log = m.log := by
  obtain ⟨id, parent, limits, w⟩ := t
  unfold wake
  cases w with
  | turn p => rfl
  | clock time p | branches ids finished next =>
    dsimp only
    split
    · rfl
    · exact log_suspend _ _ _ _

lemma log_advance (hrunning : m.running = some t) (h : m.ended? = none) :
    (m.advance c t).log = ((told t).reverse ++ m.notes, m.result) := by
  obtain ⟨id, parent, limits, process⟩ := t
  unfold advance
  cases process with
  | done o =>
    cases limits with
    | nil =>
      cases parent with
      | none =>
        unfold ended? at h
        rw [hrunning] at h
        cases h
      | some p =>
        dsimp only [finish, enqueue]
        split <;> rfl
    | cons l rest => rfl
  | ask request next | sleep time next =>
    dsimp only
    split
    · rfl
    · exact log_suspend _ _ _ _
  | parallel count branch next =>
    cases count with
    | zero => rfl
    | succ n => exact log_fork _ _ _
  | _ => rfl

lemma log_step (h : m.ended? = none) : (m.step c).log = ((m.running.elim [] told).reverse ++ m.notes, m.result) := by
  unfold step
  split
  · next t hrunning =>
    rw [hrunning]
    exact log_advance hrunning h
  · next hrunning =>
    rw [hrunning]
    split
    · dsimp only
      split
      · exact log_wake _
      · rfl
    · unfold jump
      split <;> rfl

lemma log_step_of_ended (h : m.ended? = some o) : (m.step c).log = (m.notes, some o) := by
  obtain ⟨id, hrunning⟩ := running_of_ended h
  unfold step
  rw [hrunning]
  rfl

lemma notes_step : (m.step c).notes = (m.running.elim [] told).reverse ++ m.notes := by
  cases hended : m.ended? with
  | none => exact congrArg Prod.fst (log_step hended)
  | some o =>
    obtain ⟨id, hrunning⟩ := running_of_ended hended
    rw [hrunning]
    exact congrArg Prod.fst (log_step_of_ended hended)

/-! ### Runs -/

lemma run_of_isOver (fuel : Nat) (h : m.isOver = true) : run c fuel m = m := by
  cases fuel with
  | zero => rfl
  | succ fuel => exact if_pos h

lemma run_succ (fuel : Nat) (h : m.isOver = false) : run c (fuel + 1) m = run c fuel (m.step c) :=
  if_neg (Bool.eq_false_iff.1 h)

lemma run_of_result (fuel : Nat) (h : m.result = some o) : run c fuel m = m := by
  refine run_of_isOver fuel ?_
  rw [isOver, h]
  rfl

lemma run_add (steps more : Nat) : run c (steps + more) m = run c more (run c steps m) := by
  induction steps generalizing m with
  | zero => rw [Nat.zero_add, run]
  | succ steps ih =>
    rw [Nat.add_right_comm]
    cases hover : m.isOver with
    | true => rw [run_of_isOver _ hover, run_of_isOver _ hover, run_of_isOver _ hover]
    | false => rw [run_succ _ hover, run_succ _ hover, ih]

lemma mem_notes_run (c : Client σ) (fuel : Nat) (h : n ∈ m.notes) : n ∈ (run c fuel m).notes :=
  run_keeps (P := fun m => n ∈ m.notes) (fun _ h _ => notes_step ▸ mem_append_right _ h) fuel h

lemma log_run_of_ended (fuel : Nat) (hover : m.isOver = false) (h : m.ended? = some o) :
    (run c (fuel + 1) m).log = (m.notes, some o) := by
  have hlog := @log_step_of_ended σ m c o h
  have hdone : (m.step c).isOver = true := by
    have hresult : (m.step c).result = some o := congrArg Prod.snd hlog
    unfold isOver
    rw [hresult]
    rfl
  rw [run_succ fuel hover, run_of_isOver fuel hdone, hlog]

/-- A machine whose first task has more to do comes to no result, or to a point where the process before that is
done, to which the machine without more to do gets as well. -/
lemma run_prolong (k : Outcome → Process Outcome) (c : Client σ) : ∀ (fuel : Nat) {m : Machine σ},
    m.result = none → (run c fuel (m.prolong k)).result = none ∨
      ∃ used left o, (run c used m).ended? = some o ∧ (run c used m).isOver = false ∧
        run c fuel m = run c (left + 1) (run c used m) ∧
        run c fuel (m.prolong k) = run c (left + 1) ((run c used m).prolong k)
  | 0, _, h => .inl h
  | fuel + 1, m, h => by
    cases hover : m.isOver with
    | true =>
      refine .inl ?_
      rw [run_of_isOver (fuel + 1) (show (m.prolong k).isOver = true from hover)]
      exact h
    | false =>
      cases hended : m.ended? with
      | some o => exact .inr ⟨0, fuel, o, hended, hover, rfl, rfl⟩
      | none =>
        have hresult : (m.step c).result = none :=
          (congrArg Prod.snd (log_step hended)).trans h
        rw [run_succ fuel hover, run_succ fuel (show (m.prolong k).isOver = false from hover), step_prolong hended]
        refine (run_prolong k c fuel hresult).imp_right ?_
        rintro ⟨used, left, o, hpoint⟩
        refine ⟨used + 1, left, o, ?_⟩
        rwa [run_succ used hover]

/-- A machine whose first task is done with a process goes on with the rest. -/
lemma Every.prolong {K K' : Running → Prop} (h : m.Every K) (k : Outcome → Process Outcome)
    (hresult : m.result = none) (hended : m.ended? = some o) (hfirst : ∀ t, K t → t.parent = none → t.id = 0)
    (hothers : ∀ t id, t.parent = some id → K t → K' t) (hk : K' ⟨0, none, [], k o⟩) : (m.prolong k).Every K' := by
  obtain ⟨id, hrunning, hprolonged⟩ := running_prolong k hended
  obtain rfl : id = 0 := hfirst _ (h.running _ hrunning) rfl
  refine ⟨⟨fun t ht hne => ?_, fun o ho => ?_⟩, fun t ht => ?_⟩
  · obtain ⟨u, hu, rfl⟩ := mem_map.1 ht
    have hall := h.tasks u hu
    rw [hrunning] at hall
    rw [hprolonged] at hne
    replace hall := hall hne
    cases hp : u.parent with
    | none =>
      obtain ⟨p, hu⟩ := hall.exists
      exact absurd (congrArg some (hfirst _ hu hp).symm) hne
    | some parent =>
      rw [Task.prolong_some hp]
      exact hall.mono fun p => hothers _ parent hp
  · cases hresult.symm.trans ho
  · cases hprolonged.symm.trans ht
    exact hk

end Machine

end Workflow
