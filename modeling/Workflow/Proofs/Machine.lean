import Mathlib.Tactic.Lemma
import Workflow.Run.Machine

/-!
What holds of every task of a machine. A kind of tasks to which a task keeps with its next step
(`Running.Onward`), and when a time limit is over, is the kind of all tasks at every moment of a run.
-/

namespace Workflow

open List Option

variable {o : Outcome} {id : Nat} {parent : Option Nat} {limits : List Limit} {t : Task}

/-! ### Branches that have finished -/

lemma firstFailure_mem : ∀ {finished}, firstFailure? finished = some e → ∃ id, (id, .error e) ∈ finished
  | (id, .error _) :: _, h => by
    cases h
    exact ⟨id, .head _⟩
  | (_, .ok _) :: rest, h => by
    obtain ⟨id, hid⟩ := @firstFailure_mem e rest h
    exact ⟨id, .tail _ hid⟩

lemma mem_of_lookup : ∀ {finished : List (Nat × Outcome)}, finished.lookup id = some o → (id, o) ∈ finished
  | (other, _) :: rest, h => by
    rw [lookup_cons] at h
    split at h
    · next heq =>
      cases h
      rw [beq_iff_eq.1 heq]
      exact .head _
    · exact .tail _ (mem_of_lookup h)

lemma mem_of_answerOf (h : answerOf finished id = some a) : (id, .ok a) ∈ finished := by
  unfold answerOf at h
  split at h
  · next hlookup =>
    cases h
    exact mem_of_lookup hlookup
  · cases h

lemma getElem?_of_mapM {α β : Type} {f : α → Option β} : ∀ {as : List α} {bs},
    as.mapM f = some bs → as.length = bs.length ∧
      ∀ (i : Nat) (b : β), bs[i]? = some b → ∃ a, as[i]? = some a ∧ f a = some b
  | [], bs, h => by
    cases h
    exact ⟨rfl, fun i b hb => by simp at hb⟩
  | a :: as, bs, h => by
    rw [mapM_cons] at h
    obtain ⟨b, hb, h⟩ := bind_eq_some_iff.1 h
    obtain ⟨rest, hrest, h⟩ := bind_eq_some_iff.1 h
    cases h
    obtain ⟨hlength, hget⟩ := getElem?_of_mapM hrest
    refine ⟨congrArg (· + 1) hlength, fun i c hc => ?_⟩
    cases i with
    | zero =>
      cases hc
      exact ⟨a, rfl, hb⟩
    | succ i => exact hget i c hc

/-! ### Tasks that are put back or cancelled -/

/-- The tasks that are left when those with some ids are gone, and all below them. -/
def survivors (gone : List Nat) : List Task → List Task
  | [] => []
  | t :: rest =>
    if gone.contains t.id || t.parent.any gone.contains then survivors (t.id :: gone) rest
    else t :: survivors gone rest

lemma sublist_survivors (gone : List Nat) (ts : List Task) : (survivors gone ts).Sublist ts := by
  fun_induction survivors gone ts with
  | case1 => exact .slnil
  | case2 gone t rest _ ih => exact ih.cons t
  | case3 gone t rest _ ih => exact ih.cons_cons t

/-- Puts a task in its place, or behind the others if it has none. -/
def put (t : Task) (tasks : List Task) : List Task :=
  if tasks.any (·.id = t.id) then tasks.map fun u => if u.id = t.id then t else u else tasks ++ [t]

lemma mem_put {tasks : List Task} : u ∈ put t tasks ↔ u ∈ tasks ∧ u.id ≠ t.id ∨ u = t := by
  unfold put
  split
  · next hknown =>
    obtain ⟨v, hv, hid⟩ := any_eq_true.1 hknown
    rw [List.mem_map]
    constructor
    · rintro ⟨u, hu, rfl⟩
      split
      · exact .inr rfl
      · next hne => exact .inl ⟨hu, hne⟩
    · rintro (⟨hu, hne⟩ | rfl)
      · exact ⟨u, hu, if_neg hne⟩
      · exact ⟨v, hv, if_pos (of_decide_eq_true hid)⟩
  · next hunknown =>
    rw [mem_append, mem_singleton]
    refine or_congr_left ⟨fun hu => ⟨hu, fun heq => hunknown ?_⟩, And.left⟩
    exact any_eq_true.2 ⟨u, hu, decide_eq_true heq⟩

namespace Machine

variable {σ : Type} {m : Machine σ}

lemma cancel_eq (m : Machine σ) (ids : List Nat) : m.cancel ids = { m with tasks := survivors ids m.tasks } := by
  have hfold : ∀ (ts : List Task) (state : List Nat × List Task), (ts.foldl (fun state t =>
        if state.1.contains t.id || t.parent.any state.1.contains then (t.id :: state.1, state.2)
        else (state.1, state.2 ++ [t])) state).2 = state.2 ++ survivors state.1 ts := by
    intro ts
    induction ts with
    | nil => simp [survivors]
    | cons t rest ih =>
      intro state
      rw [foldl_cons, ih, survivors]
      split
      · rfl
      · exact append_assoc ..
  have htasks := hfold m.tasks (ids, [])
  rw [nil_append] at htasks
  rw [← htasks]
  rfl

lemma mem_cancel (h : t ∈ (m.cancel ids).tasks) : t ∈ m.tasks := by
  rw [cancel_eq] at h
  exact (sublist_survivors ids m.tasks).mem h

lemma suspend_of_none (h : Limit.expired? m.now limits = none) (w : Wait) : m.suspend id parent limits w =
      { m with running := none, tasks := put ⟨id, parent, limits, w⟩ m.tasks } := by
  rw [suspend, h]
  rfl

end Machine

/-! ### Kinds of tasks -/

/-- What may come of a task with its next step is of a kind, and so are the branches that it starts. -/
def Running.Onward (K : Running → Prop) (t : Running) : Prop :=
  match t.process with
  | .done o => ∀ l rest, t.limits = l :: rest → K { t with limits := rest, process := l.next (some o) }
  | .stuck => True
  | .tell _ next => K { t with process := next () }
  | .ask _ next => ∀ reply, K { t with process := next reply }
  | .sleep _ next => K { t with process := next () }
  | .within _ body next => ∀ deadline, K { t with limits := ⟨deadline, next⟩ :: t.limits, process := body }
  | .parallel _ branch next => (∀ i id, K ⟨id, some t.id, [], branch i⟩) ∧ ∀ r, K { t with process := next r }

/-- A task of a kind stays in it when its innermost limit is over. -/
def Running.Outlasts (K : Running → Prop) : Prop :=
  ∀ {id parent l rest p}, K ⟨id, parent, l :: rest, p⟩ → K ⟨id, parent, rest, l.next none⟩

lemma Running.Outlasts.expired {K : Running → Prop} (h : Outlasts K) {now : Time} (hp : K ⟨id, parent, limits, p⟩)
    (hdue : Limit.expired? now limits = some (l, rest)) : K ⟨id, parent, rest, l.next none⟩ := by
  induction limits generalizing p with
  | nil => cases hdue
  | cons first others ih =>
    unfold Limit.expired? at hdue
    split at hdue
    · cases hdue
      exact h hp
    · exact ih (h hp) hdue

/-- However a task that waits goes on, it is of a kind. -/
def Wait.All (K : Process Outcome → Prop) : Wait → Prop
  | .turn p => K p
  | .clock _ p => K p
  | .branches _ _ next => ∀ r, K (next r)

lemma Wait.All.exists {K : Process Outcome → Prop} : ∀ {w : Wait}, w.All K → ∃ p, K p
  | .turn p, h | .clock _ p, h => ⟨p, h⟩
  | .branches _ _ _, h => ⟨_, h (.ok [])⟩

lemma Wait.All.mono {K K' : Process Outcome → Prop} : ∀ {w : Wait}, w.All K → (∀ p, K p → K' p) → w.All K'
  | .turn p, h, hK | .clock _ p, h, hK => hK p h
  | .branches _ _ _, h, hK => fun r => hK _ (h r)

namespace Machine

variable {σ : Type} {m : Machine σ} {K : Running → Prop}

/-- All waiting tasks, except one that runs, are of a kind, and so was the first one at its end. -/
structure Pool (K : Running → Prop) (busy : Option Nat) (m : Machine σ) : Prop where
  tasks : ∀ t ∈ m.tasks, busy ≠ some t.id → t.wait.All fun p => K ⟨t.id, t.parent, t.limits, p⟩
  result : ∀ o ∈ m.result, ∃ id, K ⟨id, none, [], .done o⟩

/-- All tasks are of a kind. What is known of a task from the time when it waited last means nothing while
it runs. -/
structure Every (K : Running → Prop) (m : Machine σ) : Prop extends Pool K (m.running.map (·.id)) m where
  running : ∀ t ∈ m.running, K t

lemma Pool.resume (h : m.Pool K (some id)) (hp : K ⟨id, parent, limits, p⟩) :
    Every K { m with running := some ⟨id, parent, limits, p⟩ } :=
  ⟨⟨h.tasks, h.result⟩, fun _ hu => some.inj hu ▸ hp⟩

lemma Pool.cancel (h : m.Pool K busy) (ids : List Nat) : (m.cancel ids).Pool K busy :=
  ⟨fun t ht => h.tasks t (mem_cancel ht), h.result⟩

lemma Pool.suspend (h : m.Pool K (some id)) (hlate : Running.Outlasts K) {w : Wait}
    (hw : w.All fun p => K ⟨id, parent, limits, p⟩) :
    (m.suspend id parent limits w).Every K ∧
      ((m.suspend id parent limits w).running = none → (m.suspend id parent limits w).Pool K none) := by
  cases hdue : Limit.expired? m.now limits with
  | some due =>
    obtain ⟨p, hp⟩ := hw.exists
    have hpool : (m.cancelBranches w).Pool K (some id) := by
      cases w with
      | branches ids finished next => exact h.cancel ids
      | _ => exact h
    unfold Machine.suspend
    rw [hdue]
    exact ⟨hpool.resume (hlate.expired hp hdue), nofun⟩
  | none =>
    rw [suspend_of_none hdue]
    have hpool : Pool K none { m with running := none, tasks := put ⟨id, parent, limits, w⟩ m.tasks } := by
      refine ⟨fun t ht _ => ?_, h.result⟩
      rcases mem_put.1 ht with ⟨ht, hne⟩ | rfl
      · exact h.tasks t ht fun heq => hne (some.inj heq).symm
      · exact hw
    exact ⟨⟨hpool, nofun⟩, fun _ => hpool⟩

lemma report_all (h : t.wait.All fun p => K ⟨t.id, t.parent, t.limits, p⟩) :
    (report branch o t).wait.All fun p => K ⟨(report branch o t).id, (report branch o t).parent,
      (report branch o t).limits, p⟩ := by
  obtain ⟨id, parent, limits, w⟩ := t
  cases w with
  | branches ids finished next =>
    unfold report
    dsimp only
    split <;> exact h
  | _ => exact h

lemma Pool.finish {t : Running} (h : m.Pool K (some t.id)) (ht : K ⟨t.id, t.parent, [], .done o⟩) :
    (m.finish t o).Every K := by
  have htasks : ∀ u ∈ m.tasks.filter (·.id ≠ t.id), u.wait.All fun p => K ⟨u.id, u.parent, u.limits, p⟩ := by
    intro u hu
    obtain ⟨hu, hne⟩ := mem_filter.1 hu
    exact h.tasks u hu fun heq => of_decide_eq_true hne (some.inj heq).symm
  unfold Machine.finish
  dsimp only
  split
  · next hnone =>
    refine ⟨⟨fun u hu _ => htasks u hu, fun r hr => ?_⟩, nofun⟩
    cases hr
    exact ⟨t.id, hnone ▸ ht⟩
  · next p _ =>
    have hreported : ∀ u ∈ (m.tasks.filter (·.id ≠ t.id)).map (fun u =>
        if u.id = p then report t.id o u else u), u.wait.All fun p => K ⟨u.id, u.parent, u.limits, p⟩ := by
      refine forall_mem_map.2 fun u hu => ?_
      split
      · exact report_all (htasks u hu)
      · exact htasks u hu
    unfold enqueue
    split <;> exact ⟨⟨fun u hu _ => hreported u hu, h.result⟩, nofun⟩

lemma Pool.fork {t : Running} (h : m.Pool K (some t.id)) (hlate : Running.Outlasts K)
    {next : Except RunError (List Answer) → Process Outcome}
    (hbranches : ∀ p ∈ branches, ∀ id, K ⟨id, some t.id, [], p⟩) (hnext : ∀ r, K ⟨t.id, t.parent, t.limits, next r⟩) :
    (m.fork t branches next).Every K := by
  unfold Machine.fork
  dsimp only
  obtain ⟨hevery, hidle⟩ := h.suspend hlate (w := .branches _ [] next) hnext
  split
  · exact hevery
  · next hnone =>
    refine ⟨⟨fun u hu _ => ?_, (hidle hnone).result⟩, fun u hu => hevery.running u hu⟩
    rcases mem_append.1 hu with hu | hu
    · exact (hidle hnone).tasks u hu nofun
    · obtain ⟨⟨id, p⟩, hzip, rfl⟩ := mem_map.1 hu
      exact hbranches p (List.of_mem_zip hzip).2 id

lemma Pool.advance {t : Running} (h : m.Pool K (some t.id)) (hlate : Running.Outlasts K) (c : Client σ)
    (ht : K t) (honward : t.Onward K) (hrunning : m.running = some t) : (m.advance c t).Every K := by
  obtain ⟨id, parent, limits, process⟩ := t
  unfold Machine.advance
  cases process with
  | done o =>
    cases limits with
    | nil => exact h.finish ht
    | cons l rest => exact h.resume (honward l rest rfl)
  | stuck =>
    refine ⟨⟨fun u hu hne => h.tasks u hu ?_, h.result⟩, fun u hu => ?_⟩
    · rwa [hrunning] at hne
    · cases hrunning.symm.trans hu
      exact ht
  | tell notes next =>
    have hpool : Pool K (some id) { m with notes := notes.reverse ++ m.notes } := ⟨h.tasks, h.result⟩
    exact hpool.resume honward
  | ask request next =>
    rcases hreply : c.answer m.client request with ⟨client, delay, reply⟩
    simp only [hreply]
    have hpool : Pool K (some id) { m with client := client, requests := request :: m.requests } :=
      ⟨h.tasks, h.result⟩
    split
    · exact hpool.resume (honward reply)
    · exact (hpool.suspend hlate (w := .clock _ _) (honward reply)).1
  | sleep time next =>
    dsimp only
    split
    · exact h.resume honward
    · exact (h.suspend hlate (w := .clock _ _) honward).1
  | within limit body next => exact h.resume (honward _)
  | parallel count branch next =>
    cases count with
    | zero => exact h.resume (honward.2 _)
    | succ n =>
      refine h.fork hlate (fun p hp id => ?_) honward.2
      obtain ⟨i, rfl⟩ := mem_ofFn.1 hp
      exact honward.1 i id

lemma Pool.wake (hidle : m.Pool K none) (hlate : Running.Outlasts K) (ht : t ∈ m.tasks) : (m.wake t).Every K := by
  have hw := hidle.tasks t ht nofun
  obtain ⟨id, parent, limits, w⟩ := t
  have h : m.Pool K (some id) := ⟨fun t ht _ => hidle.tasks t ht nofun, hidle.result⟩
  unfold Machine.wake
  cases w with
  | turn p => exact h.resume hw
  | clock time p =>
    dsimp only
    split
    · exact h.resume hw
    · exact (h.suspend hlate hw).1
  | branches ids finished next =>
    dsimp only
    split
    · exact (h.cancel ids).resume (hw _)
    · exact (h.suspend hlate hw).1

lemma Every.step (h : m.Every K) (hlate : Running.Outlasts K) (c : Client σ)
    (honward : ∀ t ∈ m.running, t.Onward K) : (m.step c).Every K := by
  unfold Machine.step
  split
  · next t hrunning =>
    have hpool := h.toPool
    rw [hrunning] at hpool
    exact hpool.advance hlate c (h.running t hrunning) (honward t hrunning) hrunning
  · next hrunning =>
    have hidle := h.toPool
    rw [hrunning] at hidle
    split
    · dsimp only
      split
      · next t hfind => exact Pool.wake ⟨hidle.tasks, hidle.result⟩ hlate (List.mem_of_find?_eq_some hfind)
      · exact ⟨⟨h.tasks, h.result⟩, h.running⟩
    · unfold jump
      split <;> exact ⟨⟨h.tasks, h.result⟩, h.running⟩

lemma every_start (client : σ) (hp : K ⟨0, none, [], p⟩) : (start client p).Every K :=
  ⟨⟨nofun, nofun⟩, fun t ht => by cases ht; exact hp⟩

/-- A run keeps what each of its steps keeps. -/
lemma run_keeps {P : Machine σ → Prop} {c : Client σ} (hstep : ∀ m, P m → m.isOver = false → P (m.step c)) (fuel : Nat)
    (h : P m) : P (run c fuel m) := by
  induction fuel generalizing m with
  | zero => exact h
  | succ fuel ih =>
    unfold Machine.run
    split
    · exact h
    · next hover => exact ih (hstep m h (Bool.eq_false_iff.2 hover))

lemma Every.run (hlate : Running.Outlasts K) (honward : ∀ t, K t → t.Onward K) (c : Client σ) (fuel : Nat)
    (h : m.Every K) : (run c fuel m).Every K :=
  run_keeps (fun _ h _ => h.step hlate c fun t ht => honward t (h.running t ht)) fuel h

end Machine

end Workflow
