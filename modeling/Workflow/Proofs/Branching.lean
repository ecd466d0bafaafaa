import Workflow.Proofs.Machine
import Workflow.Proofs.Yields

/-!
Parallel blocks. All arguments are evaluated first, in the order of the branches. Then the branches run, and
what the block goes on with depends on their outcomes alone: on all the answers in the order of declaration, or
on the failure that was reported first. Its variables change only where all branches succeed.
-/

namespace Workflow

open List Machine Exec

variable {next : Except RunError (List Answer) → Process Outcome} {branches : List ParallelCall} {e : RunError}
  {σ : Type}

/-! ### Arguments -/

namespace Exec

variable {α β : Type} {x : Exec α} {k : α → Exec β} {frame frame' : Frame}

lemma run_bind_ok {a : α} (h : x.run.run frame = .done (.ok a, frame')) :
    (x >>= k).run.run frame = (k a).run.run frame' := by
  have hbind : (x >>= k).run.run frame = (x.run.run frame).bind _ := rfl
  rw [hbind, h]
  rfl

lemma run_bind_error (h : x.run.run frame = .done (.error e, frame')) :
    (x >>= k).run.run frame = .done (.error e, frame') := by
  have hbind : (x >>= k).run.run frame = (x.run.run frame).bind _ := rfl
  rw [hbind, h]
  rfl

def valueError (v : ValueError) : RunError := { fault := .value v }

lemma run_eval (t : Term) (frame : Frame) :
    (eval t).run.run frame = .done ((t.eval frame.bindings).mapError valueError, frame) := by
  have hget : (get : Exec Frame).run.run frame = .done (.ok frame, frame) := rfl
  rw [eval, run_bind_ok hget]
  cases t.eval frame.bindings <;> rfl

lemma run_mapM {γ δ : Type} {f : γ → Exec δ} {g : γ → Except ValueError δ}
    (h : ∀ c, (f c).run.run frame = .done ((g c).mapError valueError, frame)) : ∀ cs : List γ,
    (cs.mapM f).run.run frame = .done ((cs.mapM g).mapError valueError, frame)
  | [] => rfl
  | c :: rest => by
    have hfirst := h c
    have hrest := run_mapM h rest
    rw [mapM_cons, mapM_cons]
    cases hd : g c with
    | error v =>
      rw [hd] at hfirst
      exact run_bind_error hfirst
    | ok d =>
      rw [hd] at hfirst
      rw [run_bind_ok hfirst]
      cases hds : rest.mapM g with
      | error v =>
        rw [hds] at hrest
        exact run_bind_error hrest
      | ok ds =>
        rw [hds] at hrest
        exact run_bind_ok hrest

lemma evalAll_eq_mapM (ts : List Term) : evalAll ts = ts.mapM eval := by
  induction ts with
  | nil => rfl
  | cons t rest ih => rw [evalAll, ih, mapM_cons]

def branchArgs (b : Bindings) (branches : List ParallelCall) : Except ValueError (List (List Json)) :=
  branches.mapM fun call => call.args.mapM fun t : Term => t.eval b

lemma run_branchArgs (frame : Frame) (branches : List ParallelCall) :
    (branches.mapM fun call => evalAll call.args).run.run frame =
      .done ((branchArgs frame.bindings branches).mapError valueError, frame) := by
  refine run_mapM (fun call => ?_) branches
  rw [evalAll_eq_mapM]
  exact run_mapM (fun t => run_eval t frame) call.args

end Exec

/-! ### Targets -/

/-- A frame in which the targets of branches have their results, assigned one after the other. -/
def Frame.assigned (frame : Frame) : List (ParallelCall × Answer) → Frame
  | [] => frame
  | (call, answer) :: rest =>
    match call.target with
    | some name => assigned { frame with bindings := frame.bindings.set name answer.value } rest
    | none => assigned frame rest

namespace Frame

lemma assigned_guard (frame : Frame) (results : List (ParallelCall × Answer)) :
    (frame.assigned results).guard = frame.guard := by
  fun_induction assigned frame results <;> simp_all

lemma assigned_globals (frame : Frame) (results : List (ParallelCall × Answer)) :
    (frame.assigned results).bindings.globals = frame.bindings.globals := by
  fun_induction assigned frame results <;> simp_all [Bindings.set]

lemma get?_assigned (frame : Frame) (results : List (ParallelCall × Answer)) (name : String) :
    (frame.assigned results).bindings.locals.get? name =
      ((results.reverse.find? fun x => x.1.target = some name).map fun x => x.2.value).or
        (frame.bindings.locals.get? name) := by
  fun_induction assigned frame results with
  | case1 frame => rfl
  | case2 frame call answer rest target htarget ih =>
    rw [ih, reverse_cons, List.find?_append, Bindings.set, Table.get?_insert]
    by_cases heq : target = name
    · cases rest.reverse.find? fun x => x.1.target = some name <;> simp [htarget, heq]
    · simp [htarget, heq]
  | case3 frame call answer rest htarget ih =>
    rw [ih, reverse_cons, List.find?_append]
    simp [htarget]

end Frame

namespace Exec

variable {args : List (List Json)} {calls : Calls} {frame : Frame}

lemma run_branchTargets : ∀ (results : List (ParallelCall × Answer)) (frame : Frame),
    (results.forM fun (call, answer) => assignTo call.target answer.value).run.run frame =
      .done (.ok (), frame.assigned results)
  | [], _ => rfl
  | (⟨_, _, some name⟩, answer) :: rest, frame =>
    run_branchTargets rest { frame with bindings := frame.bindings.set name answer.value }
  | (⟨_, _, none⟩, _) :: rest, frame => run_branchTargets rest frame

/-- What a parallel block comes to when its branches have come to something. -/
def joined (branches : List ParallelCall) (frame : Frame) : Except RunError (List Answer) → Except RunError Unit × Frame
  | .error e => (.error e, frame)
  | .ok answers => (.ok (), frame.assigned (branches.zip answers))

/-- The branches of a parallel block: agents with their arguments, which see all variables. -/
def processes (calls : Calls) (branches : List ParallelCall) (args : List (List Json)) (frame : Frame) :
    List (Process Outcome) :=
  (branches.zip args).map fun (call, args) => (calls.agent call.agent args frame.bindings.visible).run

lemma length_of_mapM {γ δ : Type} {g : γ → Except ValueError δ} : ∀ {cs : List γ} {ds},
    cs.mapM g = .ok ds → ds.length = cs.length
  | [], ds, h => by
    cases h
    rfl
  | c :: rest, ds, h => by
    rw [mapM_cons] at h
    cases hd : g c with
    | error v =>
      rw [hd] at h
      cases h
    | ok d =>
      cases hds : rest.mapM g with
      | error v =>
        rw [hd, hds] at h
        cases h
      | ok ds =>
        rw [hd, hds] at h
        cases h
        exact congrArg (· + 1) (length_of_mapM hds)

lemma length_processes (calls : Calls) (frame : Frame) (h : branchArgs frame.bindings branches = .ok args) :
    (processes calls branches args frame).length = branches.length := by
  have hargs : args.length = branches.length := length_of_mapM h
  simp [processes, hargs]

lemma run_parallel_error {v : ValueError} (h : branchArgs frame.bindings branches = .error v) :
    (parallel calls branches).run.run frame = .done (.error (valueError v), frame) := by
  have hargs := run_branchArgs frame branches
  rw [h] at hargs
  have hvisible : visible.run.run frame = .done (.ok frame.bindings.visible, frame) := rfl
  rw [parallel, run_bind_ok hvisible, run_bind_error hargs]

lemma run_parallel (h : branchArgs frame.bindings branches = .ok args) : (parallel calls branches).run.run frame =
      (Process.branches (processes calls branches args frame)).bind fun r =>
        .done (joined branches frame r) := by
  have hargs := run_branchArgs frame branches
  rw [h] at hargs
  have hvisible : visible.run.run frame = .done (.ok frame.bindings.visible, frame) := rfl
  rw [parallel, run_bind_ok hvisible, run_bind_ok hargs]
  refine congrArg (Process.parallel _ _) (funext fun r => ?_)
  cases r with
  | error e => rfl
  | ok answers => exact run_branchTargets (branches.zip answers) frame

end Exec

/-! ### Reports -/

section Reports

variable {outcome : Nat → Outcome} {order ids earlier later : List Nat} {first id : Nat}
  {f : Nat → Option Answer} {t : Task}

def reports (outcome : Nat → Outcome) (order : List Nat) : List (Nat × Outcome) :=
  order.map fun id => (id, outcome id)

lemma firstFailure_reports (h : ∀ id ∈ order, ∃ a, outcome id = .ok a) :
    firstFailure? (reports outcome order) = none := by
  induction order with
  | nil => rfl
  | cons id rest ih =>
    obtain ⟨a, ha⟩ := h id mem_cons_self
    rw [reports, map_cons, ha]
    exact ih fun other hother => h other (.tail _ hother)

lemma firstFailure_reports_append (hearlier : ∀ id ∈ earlier, ∃ a, outcome id = .ok a)
    (hfirst : outcome first = .error e) :
    firstFailure? (reports outcome (earlier ++ first :: later)) = some e := by
  induction earlier with
  | nil =>
    rw [nil_append, reports, map_cons, hfirst]
    rfl
  | cons id rest ih =>
    obtain ⟨a, ha⟩ := hearlier id mem_cons_self
    rw [cons_append, reports, map_cons, ha]
    exact ih fun other hother => hearlier other (.tail _ hother)

lemma exists_first_failure (hid : id ∈ order) (he : outcome id = .error e) :
    ∃ earlier first later e', order = earlier ++ first :: later ∧
      (∀ other ∈ earlier, ∃ a, outcome other = .ok a) ∧ outcome first = .error e' := by
  induction order with
  | nil => cases hid
  | cons other rest ih =>
    cases hother : outcome other with
    | error e' => exact ⟨[], other, rest, e', rfl, nofun, hother⟩
    | ok a =>
      have hrest : id ∈ rest := by
        rcases mem_cons.1 hid with rfl | hid
        · cases hother.symm.trans he
        · exact hid
      obtain ⟨earlier, first, later, e', rfl, hearlier, hfirst⟩ := ih hrest
      exact ⟨other :: earlier, first, later, e', rfl, forall_mem_cons.2 ⟨⟨a, hother⟩, hearlier⟩, hfirst⟩

lemma lookup_reports (id : Nat) :
    (reports outcome order).lookup id = if id ∈ order then some (outcome id) else none := by
  induction order with
  | nil => rfl
  | cons other rest ih =>
    rw [reports, map_cons, lookup_cons]
    by_cases heq : id = other
    · simp [heq]
    · rw [beq_false_of_ne heq]
      exact ih.trans (by simp [heq])

lemma answerOf_reports (hid : id ∈ order) (ha : outcome id = .ok a) :
    answerOf (reports outcome order) id = some a := by
  rw [answerOf, lookup_reports, if_pos hid, ha]

lemma answerOf_reports_of_not_mem (hid : id ∉ order) : answerOf (reports outcome order) id = none := by
  rw [answerOf, lookup_reports, if_neg hid]

lemma mapM_eq_some_map (h : ∀ id ∈ ids, f id = some (g id)) : ids.mapM f = some (ids.map g) := by
  induction ids with
  | nil => rfl
  | cons id rest ih =>
    rw [mapM_cons, h id mem_cons_self, ih fun other hother => h other (mem_cons_of_mem _ hother)]
    rfl

lemma mapM_eq_none (hid : id ∈ ids) (h : f id = none) : ids.mapM f = none := by
  induction ids with
  | nil => cases hid
  | cons other rest ih =>
    rw [mapM_cons]
    rcases mem_cons.1 hid with rfl | hid
    · rw [h]
      rfl
    · rw [ih hid]
      cases f other <;> rfl

lemma joined_reports (hids : ∀ id ∈ ids, id ∈ order) (hanswer : ∀ id ∈ ids, outcome id = .ok (answer id))
    (horder : ∀ id ∈ order, id ∈ ids) : joined? ids (reports outcome order) = some (.ok (ids.map answer)) := by
  have hmap : ids.mapM (answerOf (reports outcome order)) = some (ids.map answer) :=
    mapM_eq_some_map fun id hid => answerOf_reports (hids id hid) (hanswer id hid)
  rw [joined?, firstFailure_reports fun id hid => ⟨_, hanswer id (horder id hid)⟩, hmap]
  rfl

lemma joined_reports_of_failure (hearlier : ∀ id ∈ earlier, ∃ a, outcome id = .ok a)
    (hfirst : outcome first = .error e) :
    joined? ids (reports outcome (earlier ++ first :: later)) = some (.error e) := by
  rw [joined?, firstFailure_reports_append hearlier hfirst]

lemma joined_reports_of_missing (horder : ∀ id ∈ order, ∃ a, outcome id = .ok a) (hid : id ∈ ids)
    (hmissing : id ∉ order) : joined? ids (reports outcome order) = none := by
  rw [joined?, firstFailure_reports horder, mapM_eq_none hid (answerOf_reports_of_not_mem hmissing)]
  rfl

/-- A task that branches report to, one after the other. -/
def Task.hears (outcome : Nat → Outcome) (t : Task) (order : List Nat) : Task :=
  order.foldl (fun t id => report id (outcome id) t) t

lemma Task.hears_branches (horder : ∀ id ∈ order, id ∈ ids) (ht : t.wait = .branches ids finished next) :
    t.hears outcome order = { t with wait := .branches ids (finished ++ reports outcome order) next } := by
  induction order generalizing t finished with
  | nil =>
    rw [hears, foldl_nil, reports, map_nil, append_nil, ← ht]
  | cons id rest ih =>
    have hid : ids.contains id = true := contains_iff_mem.2 (horder id mem_cons_self)
    have hreport : report id (outcome id) t =
        { t with wait := .branches ids (finished ++ [(id, outcome id)]) next } := by
      rw [report, ht]
      exact if_pos hid
    rw [hears, foldl_cons, hreport]
    refine (ih (fun other hother => horder other (.tail _ hother)) rfl).trans ?_
    rw [append_assoc]
    rfl

/-- What a task that waits for branches goes on with when some have reported, in some order: with all answers in
the order of the branches, or with the failure that was reported first. -/
structure Task.Joins {σ : Type} (m : Machine σ) (t : Task) (ids : List Nat)
    (next : Except RunError (List Answer) → Process Outcome) (outcome : Nat → Outcome) (order : List Nat) :
    Prop where
  answers : ∀ answer, (∀ id ∈ ids, outcome id = .ok (answer id)) → (∀ id ∈ ids, id ∈ order) →
    (m.wake (t.hears outcome order)).running = some ⟨t.id, t.parent, t.limits, next (.ok (ids.map answer))⟩
  failure : (∃ id ∈ order, ∃ e, outcome id = .error e) → ∃ earlier first later e,
    order = earlier ++ first :: later ∧ (∀ id ∈ earlier, ∃ a, outcome id = .ok a) ∧
    outcome first = .error e ∧ (m.wake (t.hears outcome order)).running =
      some ⟨t.id, t.parent, t.limits, next (.error e)⟩
  missing : (∀ id ∈ order, ∃ a, outcome id = .ok a) → (∃ id ∈ ids, id ∉ order) → m.wake (t.hears outcome order) =
      m.suspend t.id t.parent t.limits (.branches ids (reports outcome order) next)

lemma Task.joins (m : Machine σ) (ht : t.wait = .branches ids [] next) (outcome : Nat → Outcome)
    (horder : ∀ id ∈ order, id ∈ ids) : t.Joins m ids next outcome order := by
  have hwait : t.hears outcome order = { t with wait := .branches ids (reports outcome order) next } :=
    hears_branches horder ht
  have hwoken : ∀ {r}, joined? ids (reports outcome order) = some r →
      (m.wake (t.hears outcome order)).running = some ⟨t.id, t.parent, t.limits, next r⟩ := by
    intro r hr
    rw [hwait, wake]
    dsimp only
    rw [hr]
  refine ⟨fun answer hanswer hall => hwoken (joined_reports hall hanswer horder), fun hfails => ?_,
    fun hok hmissing => ?_⟩
  · obtain ⟨id, hid, e, he⟩ := hfails
    obtain ⟨earlier, first, later, e', rfl, hearlier, hfirst⟩ := exists_first_failure hid he
    exact ⟨earlier, first, later, e', rfl, hearlier, hfirst, hwoken (joined_reports_of_failure hearlier hfirst)⟩
  · obtain ⟨id, hid, hmissing⟩ := hmissing
    rw [hwait, wake]
    dsimp only
    rw [joined_reports_of_missing hok hid hmissing]

end Reports

/-! ### Tasks of branches -/

/-- A machine has a task that waits for branches, of which none has reported, and each branch is a task of its
own. -/
structure Machine.Forked {σ : Type} (m : Machine σ) (t : Running) (ids : List Nat)
    (branches : List (Process Outcome)) (next : Except RunError (List Answer) → Process Outcome) : Prop where
  nodup : ids.Nodup
  length : ids.length = branches.length
  waits : ⟨t.id, t.parent, t.limits, .branches ids [] next⟩ ∈ m.tasks
  branch : ∀ {i id : Nat} {p : Process Outcome}, ids[i]? = some id → branches[i]? = some p →
     ⟨id, some t.id, [], .turn p⟩ ∈ m.tasks

lemma Machine.mem_suspend {m : Machine σ} {id : Nat} {parent : Option Nat} {limits : List Limit} {w : Wait}
    (h : Limit.expired? m.now limits = none) :
    (m.suspend id parent limits w).running = none ∧ ⟨id, parent, limits, w⟩ ∈ (m.suspend id parent limits w).tasks := by
  rw [suspend_of_none h]
  exact ⟨rfl, mem_put.2 (.inr rfl)⟩

lemma Machine.forked_fork (m : Machine σ) {t : Running} (branches : List (Process Outcome))
    (next : Except RunError (List Answer) → Process Outcome) (h : Limit.expired? m.now t.limits = none) :
    (m.fork t branches next).Forked t ((List.range branches.length).map (m.started + ·)) branches next := by
  obtain ⟨hrunning, hwaits⟩ := @mem_suspend σ m t.id t.parent t.limits
    (.branches ((List.range branches.length).map (m.started + ·)) [] next) h
  unfold fork
  dsimp only
  rw [hrunning]
  refine ⟨?_, by simp, mem_append_left _ hwaits, fun {i id p} hid hp => ?_⟩
  · refine List.Pairwise.map _ (fun a b hne heq => hne ?_) nodup_range
    exact Nat.add_left_cancel heq
  · refine mem_append_right _ (mem_map.2 ⟨(id, p), ?_, rfl⟩)
    exact mem_of_getElem? (List.getElem?_zip_eq_some.2 ⟨hid, hp⟩)

lemma Machine.forked_advance (client : Client σ) (m : Machine σ) {t : Running}
    {branches : List (Process Outcome)} (ht : t.process = (Process.branches branches).bind next)
    (hbranches : branches ≠ []) (h : Limit.expired? m.now t.limits = none) :
    ∃ ids, (m.advance client t).Forked t ids branches next := by
  obtain ⟨id, parent, limits, process⟩ := t
  obtain rfl : process = _ := ht
  cases branches with
  | nil => exact absurd rfl hbranches
  | cons p rest =>
    have hadvance : m.advance client ⟨id, parent, limits, (Process.branches (p :: rest)).bind next⟩ =
        m.fork ⟨id, parent, limits, (Process.branches (p :: rest)).bind next⟩ (List.ofFn (p :: rest).get) next := rfl
    have hsame : List.ofFn (p :: rest).get = p :: rest := ofFn_getElem
    rw [hadvance, hsame]
    exact ⟨_, m.forked_fork (p :: rest) next h⟩

/-! ### Blocks -/

/-- A frame after all branches have succeeded: targets have the values of the last branches with them, and
nothing else is changed. -/
structure Frame.Assigns (frame : Frame) (results : List (ParallelCall × Answer)) (after : Frame) : Prop where
  guard : after.guard = frame.guard
  globals : after.bindings.globals = frame.bindings.globals
  locals : ∀ name, after.bindings.locals.get? name =
    ((results.reverse.find? fun x => x.1.target = some name).map fun x => x.2.value).or
      (frame.bindings.locals.get? name)

lemma Frame.assigns_assigned (frame : Frame) (results : List (ParallelCall × Answer)) :
    frame.Assigns results (frame.assigned results) :=
  ⟨frame.assigned_guard results, frame.assigned_globals results, frame.get?_assigned results⟩

namespace Context

def parallelBlock (c : Context) (calls : Calls) (bound line : Nat) (branches : List ParallelCall)
    (body : List Instr) (frame : Frame) (k : Except RunError Control × Frame → Process Outcome) :
    Process Outcome :=
  ((c.execInstr calls bound (.mk line (.parallel branches) body)).run.run frame).bind k

lemma parallelBlock_eq (c : Context) (calls : Calls) (bound line : Nat) (branches : List ParallelCall)
    (body : List Instr) (frame : Frame) (k : Except RunError Control × Frame → Process Outcome) :
    c.parallelBlock calls bound line branches body frame k =
      ((parallel calls branches).run.run frame).bind fun x => k (x.1.map fun _ => .next, x.2) := by
  unfold parallelBlock
  rw [execInstr]
  refine (Process.bind_assoc ((parallel calls branches).run.run frame) _ k).trans ?_
  refine congrArg (Process.bind _) (funext fun (r, after) => ?_)
  cases r <;> rfl

/-- A parallel block with an argument that has no value fails with that error. Otherwise it starts its branches
and waits for them; with their answers, in the order of the branches, it goes on in a frame in which these are
assigned, with a failure in the frame as it was. Which of both it is depends only on what the branches report. -/
theorem parallel_settles (c : Context) (calls : Calls) (bound line : Nat) (branches : List ParallelCall)
    (body : List Instr) (frame : Frame) (k : Except RunError Control × Frame → Process Outcome) :
    (∀ v, branchArgs frame.bindings branches = .error v →
      c.parallelBlock calls bound line branches body frame k = k (.error { fault := .value v }, frame)) ∧
    ∀ args, branchArgs frame.bindings branches = .ok args → ∃ next,
      (∀ {σ : Type} (client : Client σ) (m : Machine σ) (t : Running),
        t.process = c.parallelBlock calls bound line branches body frame k →
        Limit.expired? m.now t.limits = none →
        if branches = [] then (m.advance client t).running = some { t with process := next (.ok []) }
        else ∃ ids, ids.length = branches.length ∧
          (m.advance client t).Forked t ids (processes calls branches args frame) next) ∧
      (∀ {σ : Type} (m : Machine σ) (t : Task) (ids : List Nat) (outcome : Nat → Outcome)
        (order : List Nat), t.wait = .branches ids [] next → (∀ id ∈ order, id ∈ ids) →
        t.Joins m ids next outcome order) ∧
      (∀ answers, ∃ after, frame.Assigns (branches.zip answers) after ∧
        next (.ok answers) = k (.ok .next, after)) ∧
      ∀ e, next (.error e) = k (.error e, frame) := by
  rw [parallelBlock_eq]
  refine ⟨fun v hv => ?_, fun args hargs => ?_⟩
  · rw [run_parallel_error hv]
    rfl
  · rw [run_parallel hargs]
    refine ⟨fun r => k ((Exec.joined branches frame r).1.map fun _ => .next,
      (Exec.joined branches frame r).2), ?_, ?_, fun answers => ⟨_, frame.assigns_assigned _, rfl⟩,
      fun e => rfl⟩
    · intro σ client m t ht hlimits
      have hlength := length_processes calls frame hargs
      split
      · next hnone =>
        have hnil : processes calls branches args frame = [] := by
          rw [← length_eq_zero_iff, hlength, hnone]
          rfl
        rw [hnil] at ht
        rw [advance, ht]
        rfl
      · next hsome =>
        have hne : processes calls branches args frame ≠ [] := by
          intro hnil
          rw [hnil] at hlength
          exact hsome (length_eq_zero_iff.1 hlength.symm)
        obtain ⟨ids, hforked⟩ := m.forked_advance client ht hne hlimits
        exact ⟨ids, hforked.length.trans hlength, hforked⟩
    · exact fun m t ids outcome order ht horder => t.joins m ht outcome horder

def twins : List ParallelCall := [⟨"a", [], some "x"⟩, ⟨"b", [], some "x"⟩]

def endsWithX : Except RunError Control × Frame → Process Outcome
  | (.ok _, frame) => .done (.ok ⟨(frame.bindings.locals.get? "x").getD .null, "", false⟩)
  | (.error e, _) => .done (.error e)

/-- Of two branches with one target the one that is declared last wins, also if it finishes first. -/
theorem parallel_settles_twins : ∃ next, branchArgs {} twins = .ok [[], []] ∧
    ((start () .stuck).wake (Task.hears (fun id => .ok ⟨.nat id, "", false⟩)
      ⟨0, none, [], .branches [1, 2] [] next⟩ [2, 1])).running =
      some ⟨0, none, [], .done (.ok ⟨.nat 2, "", false⟩)⟩ := by
  have hargs : branchArgs {} twins = .ok [[], []] := rfl
  obtain ⟨next, -, hjoins, hnext, -⟩ := (parallel_settles default ⟨fun _ _ _ => Act.stuck,
    fun _ _ _ _ => Act.stuck, fun _ _ => Act.stuck⟩ 0 1 twins [] { bindings := {} } endsWithX).2 _ hargs
  obtain ⟨after, hafter, heq⟩ := hnext [⟨.nat 1, "", false⟩, ⟨.nat 2, "", false⟩]
  have hx : after.bindings.locals.get? "x" = some (.nat 2) := hafter.locals "x"
  have hjoin := (hjoins (start () .stuck) ⟨0, none, [], .branches [1, 2] [] next⟩ [1, 2]
    (fun id => .ok ⟨.nat id, "", false⟩) [2, 1] rfl (by decide)).answers _ (fun _ _ => rfl) (by decide)
  refine ⟨next, hargs, hjoin.trans ?_⟩
  rw [map_cons, map_cons, map_nil, heq, endsWithX, hx]
  rfl

end Context

end Workflow
