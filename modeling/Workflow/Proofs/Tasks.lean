import Mathlib.Data.List.Nodup
import Workflow.Proofs.Machine

/-!
The tasks of a machine form a tree. Every task but the first has a parent, which was started before it and waits
for it as long as it is there; a task that runs waits for nothing.
-/

namespace Workflow

open List Machine

variable {id : Nat} {up : Option Nat}

/-! ### Cancelled tasks -/

section Survivors

variable {gone : List Nat} {ts : List Task} {t u : Task}

lemma not_mem_of_survivors (h : t ∈ survivors gone ts) : t.id ∉ gone ∧ ∀ p, t.parent = some p → p ∉ gone := by
  fun_induction survivors gone ts with
  | case1 => cases h
  | case2 gone u rest _ ih =>
    obtain ⟨hid, hparent⟩ := ih h
    exact ⟨fun hmem => hid (.tail _ hmem), fun p hp hmem => hparent p hp (.tail _ hmem)⟩
  | case3 gone u rest hstays ih =>
    rcases mem_cons.1 h with rfl | h
    · refine ⟨fun hmem => hstays ?_, fun p hp hmem => hstays ?_⟩
      · simp [hmem]
      · simp [hp, hmem]
    · exact ih h

lemma parent_mem_survivors (hsorted : ts.Pairwise fun t u => t.id < u.id) (ht : t ∈ survivors gone ts)
    (hu : u ∈ ts) (hparent : t.parent = some u.id) (hlt : u.id < t.id) : u ∈ survivors gone ts := by
  fun_induction survivors gone ts with
  | case1 => cases ht
  | case2 gone v rest _ ih =>
    obtain ⟨-, hrest⟩ := pairwise_cons.1 hsorted
    rcases mem_cons.1 hu with rfl | hu
    · exact absurd mem_cons_self ((not_mem_of_survivors ht).2 u.id hparent)
    · exact ih hrest ht hu
  | case3 gone v rest _ ih =>
    obtain ⟨hfirst, hrest⟩ := pairwise_cons.1 hsorted
    rcases mem_cons.1 hu with rfl | hlater
    · exact .head _
    · rcases mem_cons.1 ht with rfl | ht
      · exact absurd (hfirst u hlater) (Nat.lt_asymm hlt)
      · exact .tail _ (ih hrest ht hlater)

lemma mem_survivors {bound : Nat} (hgone : ∀ id ∈ gone, bound < id)
    (hparent : ∀ t ∈ ts, ∀ p, t.parent = some p → p < t.id) (ht : t ∈ ts) (hle : t.id ≤ bound) :
    t ∈ survivors gone ts := by
  fun_induction survivors gone ts with
  | case1 => cases ht
  | case2 gone v rest hgoes ih =>
    have hv : bound < v.id := by
      rcases Bool.or_eq_true_iff.1 hgoes with hid | hup
      · exact hgone v.id (contains_iff_mem.1 hid)
      · obtain ⟨p, hp, hmem⟩ := (Option.any_eq_true _ _).1 hup
        exact Nat.lt_trans (hgone p (contains_iff_mem.1 hmem)) (hparent v mem_cons_self p hp)
    rcases mem_cons.1 ht with rfl | ht
    · exact absurd hle (Nat.not_le.2 hv)
    · exact ih (forall_mem_cons.2 ⟨hv, hgone⟩) (fun u hu => hparent u (.tail _ hu)) ht
  | case3 gone v rest _ ih =>
    rcases mem_cons.1 ht with rfl | ht
    · exact .head _
    · exact .tail _ (ih hgone (fun u hu => hparent u (.tail _ hu)) ht)

lemma survivors_eq_self (h : ∀ t ∈ ts, t.id ∉ gone ∧ ∀ p, t.parent = some p → p ∉ gone) : survivors gone ts = ts := by
  induction ts with
  | nil => rfl
  | cons t rest ih =>
    obtain ⟨⟨hid, hparent⟩, hrest⟩ := forall_mem_cons.1 h
    rw [survivors, if_neg, ih hrest]
    intro hgoes
    rcases Bool.or_eq_true_iff.1 hgoes with hmem | hup
    · exact hid (contains_iff_mem.1 hmem)
    · obtain ⟨p, hp, hmem⟩ := (Option.any_eq_true _ _).1 hup
      exact hparent p hp (contains_iff_mem.1 hmem)

lemma survivors_nil (ts : List Task) : survivors [] ts = ts :=
  survivors_eq_self fun _ _ => ⟨nofun, fun _ _ => nofun⟩

end Survivors

/-! ### The tree -/

def Wait.ids : Wait → List Nat
  | .branches ids _ _ => ids
  | _ => []

def Wait.finished : Wait → List (Nat × Outcome)
  | .branches _ finished _ => finished
  | _ => []

/-- A task waits for a branch that has not finished. -/
def Task.Expects (t : Task) (id : Nat) : Prop := id ∈ t.wait.ids ∧ ∀ o, (id, o) ∉ t.wait.finished

/-- The parent of a task waits for it and does not run. -/
def Awaited (tasks : List Task) (busy : Option Nat) (id : Nat) (parent : Option Nat) : Prop :=
  ∀ p, parent = some p → busy ≠ some p ∧ ∃ u ∈ tasks, u.id = p ∧ u.Expects id

/-- Tasks, of which one may run, with the parents of all tasks that were ever started. -/
structure TaskTree (parent : Nat → Option Nat) (started : Nat) (busy : Option Nat) (tasks : List Task) : Prop where
  sorted : tasks.Pairwise fun t u => t.id < u.id
  bound : ∀ t ∈ tasks, t.id < started
  parents : ∀ t ∈ tasks, t.parent = parent t.id
  lower : ∀ {id p : Nat}, parent id = some p → p < id
  first : ∀ {id : Nat}, id < started → parent id = none → id = 0
  branches : ∀ t ∈ tasks, t.wait.ids.Nodup ∧ ∀ id ∈ t.wait.ids, parent id = some t.id ∧ id < started
  awaited : ∀ t ∈ tasks, Awaited tasks busy t.id t.parent

/-- A task that runs has its place among the others. -/
structure TaskTree.Place (parent : Nat → Option Nat) (started : Nat) (tasks : List Task) (id : Nat)
    (up : Option Nat) : Prop where
  bound : id < started
  parent : up = parent id
  known : tasks = [] ∨ ∃ u ∈ tasks, u.id = id
  awaited : Awaited tasks (some id) id up

namespace Machine

variable {σ : Type} {m : Machine σ} {parent : Option Nat} {limits : List Limit}

lemma cancelBranches_eq (w : Wait) : m.cancelBranches w = { m with tasks := survivors w.ids m.tasks } := by
  cases w with
  | branches ids finished next => exact m.cancel_eq ids
  | _ => simp only [cancelBranches, Wait.ids, survivors_nil]

lemma suspend_of_expired (h : Limit.expired? m.now limits = some (l, rest)) (w : Wait) :
    m.suspend id parent limits w =
      { m with tasks := survivors w.ids m.tasks, running := some ⟨id, parent, rest, l.next none⟩ } := by
  rw [suspend, h]
  dsimp only
  rw [cancelBranches_eq]

end Machine

lemma report_spec (branch : Nat) (o : Outcome) (t : Task) :
    (report branch o t).id = t.id ∧ (report branch o t).parent = t.parent ∧ (report branch o t).wait.ids = t.wait.ids ∧
      ∀ x ∈ (report branch o t).wait.finished, x ∈ t.wait.finished ∨ x = (branch, o) := by
  obtain ⟨id, parent, limits, w⟩ := t
  unfold report
  cases w with
  | branches ids finished next =>
    dsimp only
    split
    · refine ⟨rfl, rfl, rfl, fun x hx => ?_⟩
      exact (mem_append.1 hx).imp_right mem_singleton.1
    · exact ⟨rfl, rfl, rfl, fun x hx => .inl hx⟩
  | _ => exact ⟨rfl, rfl, rfl, fun x hx => .inl hx⟩

def branchIds (started count : Nat) : List Nat := (List.range count).map (started + ·)

def branchTasks (started id : Nat) (branches : List (Process Outcome)) : List Task :=
  ((branchIds started branches.length).zip branches).map fun x => ⟨x.1, some id, [], .turn x.2⟩

def forked (parent : Nat → Option Nat) (started id i : Nat) : Option Nat :=
  if i < started then parent i else some id

@[simp] lemma length_branchIds (started count : Nat) : (branchIds started count).length = count := by
  simp [branchIds]

@[simp] lemma getElem_branchIds {started count i : Nat} (h : i < (branchIds started count).length) :
    (branchIds started count)[i] = started + i := by
  simp [branchIds]

lemma pairwise_branchIds (started count : Nat) : (branchIds started count).Pairwise (· < ·) :=
  List.Pairwise.map _ (fun _ _ h => Nat.add_lt_add_left h started) pairwise_lt_range

lemma pairwise_branchTasks (started id : Nat) (branches : List (Process Outcome)) :
    (branchTasks started id branches).Pairwise fun t u => t.id < u.id := by
  have hfst : ((branchIds started branches.length).zip branches).map Prod.fst =
      branchIds started branches.length := map_fst_zip (by simp)
  have hids := pairwise_branchIds started branches.length
  rw [← hfst, pairwise_map] at hids
  exact pairwise_map.2 hids

lemma mem_branchTasks {started : Nat} {branches : List (Process Outcome)} (h : t ∈ branchTasks started id branches) :
    ∃ i p, branches[i]? = some p ∧ t = ⟨started + i, some id, [], .turn p⟩ := by
  obtain ⟨⟨j, p⟩, hx, rfl⟩ := mem_map.1 h
  obtain ⟨i, hi⟩ := List.getElem?_of_mem hx
  obtain ⟨hj, hp⟩ := List.getElem?_zip_eq_some.1 hi
  obtain ⟨hlt, rfl⟩ := List.getElem?_eq_some_iff.1 hj
  rw [getElem_branchIds]
  exact ⟨i, p, hp, rfl⟩

namespace TaskTree

variable {parent : Nat → Option Nat} {started : Nat} {busy : Option Nat} {tasks : List Task} {t u : Task}

lemma unique (h : TaskTree parent started busy tasks) (ht : t ∈ tasks) (hu : u ∈ tasks) (hid : t.id = u.id) :
    t = u := by
  have hnodup : (tasks.map (·.id)).Nodup := List.Pairwise.map _ (fun _ _ => Nat.ne_of_lt) h.sorted
  exact inj_on_of_nodup_map hnodup ht hu hid

lemma put_eq_self (h : TaskTree parent started busy tasks) (ht : t ∈ tasks) : put t tasks = tasks := by
  rw [put, if_pos (any_eq_true.2 ⟨t, ht, decide_eq_true rfl⟩)]
  refine (map_congr_left fun u hu => ?_).trans (map_id tasks)
  split
  · next heq => exact (h.unique hu ht heq).symm
  · rfl

lemma claim (h : TaskTree parent started none tasks) (ht : t ∈ tasks) :
    TaskTree parent started (some t.id) (survivors t.wait.ids tasks) ∧
      Place parent started (survivors t.wait.ids tasks) t.id t.parent := by
  have hsub := sublist_survivors t.wait.ids tasks
  have hlower : ∀ u ∈ tasks, ∀ p, u.parent = some p → p < u.id :=
    fun u hu p hp => h.lower ((h.parents u hu).symm.trans hp)
  have hkept : ∀ u ∈ tasks, u.id ≤ t.id → u ∈ survivors t.wait.ids tasks := fun u hu hle =>
    mem_survivors (fun id hid => h.lower ((h.branches t ht).2 id hid).1) hlower hu hle
  refine ⟨⟨h.sorted.sublist hsub, fun u hu => h.bound u (hsub.mem hu), fun u hu => h.parents u (hsub.mem hu),
    h.lower, h.first, fun u hu => h.branches u (hsub.mem hu), fun u hu p hp => ?_⟩,
    h.bound t ht, h.parents t ht, .inr ⟨t, hkept t ht .refl, rfl⟩, fun p hp => ?_⟩
  · obtain ⟨-, v, hv, rfl, hexpects⟩ := h.awaited u (hsub.mem hu) p hp
    refine ⟨fun heq => ?_, v, ?_, rfl, hexpects⟩
    -- a branch of the task itself is cancelled
    · obtain rfl := h.unique ht hv (Option.some.inj heq)
      exact (not_mem_of_survivors hu).1 hexpects.1
    · exact parent_mem_survivors h.sorted hu hv hp (hlower u (hsub.mem hu) _ hp)
  · obtain ⟨-, v, hv, rfl, hexpects⟩ := h.awaited t ht p hp
    have hlt := hlower t ht _ hp
    exact ⟨fun heq => Nat.ne_of_gt hlt (Option.some.inj heq), v, hkept v hv (Nat.le_of_lt hlt), rfl, hexpects⟩

lemma put {w : Wait} (h : TaskTree parent started (some id) tasks) (hplace : Place parent started tasks id up)
    (hw : w.ids.Nodup ∧ ∀ i ∈ w.ids, parent i = some id ∧ i < started) :
    TaskTree parent started none (put ⟨id, up, limits, w⟩ tasks) := by
  have hmem := @mem_put ⟨id, up, limits, w⟩
  have hawaited : ∀ {i : Nat} {q : Option Nat}, Awaited tasks (some id) i q →
      Awaited (Workflow.put ⟨id, up, limits, w⟩ tasks) none i q := by
    intro i q hi p hp
    obtain ⟨hne, v, hv, rfl, hexpects⟩ := hi p hp
    exact ⟨nofun, v, mem_put.2 (.inl ⟨hv, fun heq => hne (congrArg some heq.symm)⟩), rfl, hexpects⟩
  refine ⟨?_, fun u hu => ?_, fun u hu => ?_, h.lower, h.first, fun u hu => ?_, fun u hu => ?_⟩
  · unfold Workflow.put
    split
    · refine List.Pairwise.map _ (fun u v huv => ?_) h.sorted
      split <;> split <;> simp_all
    -- only the first task is not there yet, and then nothing is
    · next hunknown =>
      rcases hplace.known with rfl | ⟨u, hu, hid⟩
      · exact pairwise_singleton ..
      · exact absurd (any_eq_true.2 ⟨u, hu, decide_eq_true hid⟩) hunknown
  all_goals rcases hmem.1 hu with ⟨hu, -⟩ | rfl
  · exact h.bound u hu
  · exact hplace.bound
  · exact h.parents u hu
  · exact hplace.parent
  · exact h.branches u hu
  · exact hw
  · exact hawaited (h.awaited u hu)
  · exact hawaited hplace.awaited

lemma remove (h : TaskTree parent started (some id) tasks) :
    TaskTree parent started none (tasks.filter (·.id ≠ id)) := by
  have hsub : (tasks.filter (·.id ≠ id)).Sublist tasks := filter_sublist
  refine ⟨h.sorted.sublist hsub, fun u hu => h.bound u (hsub.mem hu), fun u hu => h.parents u (hsub.mem hu),
    h.lower, h.first, fun u hu => h.branches u (hsub.mem hu), fun u hu p hp => ?_⟩
  obtain ⟨hne, v, hv, rfl, hexpects⟩ := h.awaited u (hsub.mem hu) p hp
  exact ⟨nofun, v, mem_filter.2 ⟨hv, decide_eq_true fun heq => hne (congrArg some heq.symm)⟩, rfl, hexpects⟩

lemma report (h : TaskTree parent started none tasks) (hgone : ∀ u ∈ tasks, u.id ≠ branch) (p : Nat) (o : Outcome) :
    TaskTree parent started none (tasks.map fun u => if u.id = p then Machine.report branch o u else u) := by
  set hears : Task → Task := fun u => if u.id = p then Machine.report branch o u else u
  have hsame : ∀ u, (hears u).id = u.id ∧ (hears u).parent = u.parent ∧ (hears u).wait.ids = u.wait.ids ∧
      ∀ x ∈ (hears u).wait.finished, x ∈ u.wait.finished ∨ x = (branch, o) := by
    intro u
    dsimp only [hears]
    split
    · exact report_spec branch o u
    · exact ⟨rfl, rfl, rfl, fun x hx => .inl hx⟩
  have hall : ∀ {P : Task → Prop}, (∀ u ∈ tasks, P (hears u)) → ∀ u ∈ tasks.map hears, P u :=
    fun hP => forall_mem_map.2 hP
  refine ⟨?_, hall fun u hu => ?_, hall fun u hu => ?_, h.lower, h.first, hall fun u hu => ?_, hall fun u hu p hp => ?_⟩
  · refine List.Pairwise.map _ (fun u v huv => ?_) h.sorted
    rwa [(hsame u).1, (hsame v).1]
  · exact (hsame u).1 ▸ h.bound u hu
  · rw [(hsame u).1, (hsame u).2.1]
    exact h.parents u hu
  · rw [(hsame u).1, (hsame u).2.2.1]
    exact h.branches u hu
  · obtain ⟨-, v, hv, rfl, hid, hopen⟩ := h.awaited u hu p ((hsame u).2.1.symm.trans hp)
    refine ⟨nofun, hears v, mem_map_of_mem hv, (hsame v).1, ?_, fun r hr => ?_⟩
    · rwa [(hsame u).1, (hsame v).2.2.1]
    · rw [(hsame u).1] at hr
      rcases (hsame v).2.2.2 _ hr with hr | heq
      · exact hopen r hr
      · exact hgone u hu (congrArg Prod.fst heq)

lemma grow (h : TaskTree parent started busy tasks) (hid : id < started) :
    TaskTree (forked parent started id) (started + more) busy tasks := by
  refine ⟨h.sorted, fun u hu => Nat.lt_add_right more (h.bound u hu), fun u hu => ?_, fun {i p} hp => ?_,
    fun {i} hi hnone => ?_, fun u hu => ⟨(h.branches u hu).1, fun i hi => ?_⟩, h.awaited⟩
  · rw [forked, if_pos (h.bound u hu)]
    exact h.parents u hu
  · unfold forked at hp
    split at hp
    · exact h.lower hp
    · next hge =>
      cases hp
      exact Nat.lt_of_lt_of_le hid (Nat.not_lt.1 hge)
  · unfold forked at hnone
    split at hnone
    · next hlt => exact h.first hlt hnone
    · cases hnone
  · obtain ⟨hparent, hlt⟩ := (h.branches u hu).2 i hi
    exact ⟨(if_pos hlt).trans hparent, Nat.lt_add_right more hlt⟩

lemma append (h : TaskTree parent started none tasks) (hsorted : (tasks ++ more).Pairwise fun t u => t.id < u.id)
    (hmore : ∀ u ∈ more, u.id < started ∧ u.parent = parent u.id ∧ u.wait.ids = [] ∧ Awaited tasks none u.id u.parent) :
    TaskTree parent started none (tasks ++ more) := by
  have hawaited : ∀ {i : Nat} {q : Option Nat}, Awaited tasks none i q → Awaited (tasks ++ more) none i q := by
    intro i q hi p hp
    obtain ⟨hne, v, hv, hexpects⟩ := hi p hp
    exact ⟨hne, v, mem_append_left more hv, hexpects⟩
  refine ⟨hsorted, fun u hu => ?_, fun u hu => ?_, h.lower, h.first, fun u hu => ?_, fun u hu => ?_⟩
  all_goals rcases mem_append.1 hu with hu | hu
  · exact h.bound u hu
  · exact (hmore u hu).1
  · exact h.parents u hu
  · exact (hmore u hu).2.1
  · exact h.branches u hu
  · rw [(hmore u hu).2.2.1]
    exact ⟨.nil, nofun⟩
  · exact hawaited (h.awaited u hu)
  · exact hawaited (hmore u hu).2.2.2

lemma Place.grow (h : Place parent started tasks id up) :
    Place (forked parent started id) (started + more) tasks id up :=
  ⟨Nat.lt_add_right more h.bound, h.parent.trans (if_pos h.bound).symm, h.known, h.awaited⟩

lemma fork (h : TaskTree parent started (some id) tasks) (hplace : Place parent started tasks id up)
    (limits : List Limit) (branches : List (Process Outcome))
    (next : Except RunError (List Answer) → Process Outcome) :
    TaskTree (forked parent started id) (started + branches.length) none
      (Workflow.put ⟨id, up, limits, .branches (branchIds started branches.length) [] next⟩ tasks ++
        branchTasks started id branches) := by
  have hids : ∀ i ∈ branchIds started branches.length,
      forked parent started id i = some id ∧ i < started + branches.length := by
    intro i hi
    obtain ⟨j, hj, rfl⟩ := mem_map.1 hi
    exact ⟨if_neg (Nat.not_lt.2 (Nat.le_add_right started j)), Nat.add_lt_add_left (mem_range.1 hj) started⟩
  have hput : TaskTree (forked parent started id) (started + branches.length) none
      (Workflow.put ⟨id, up, limits, .branches (branchIds started branches.length) [] next⟩ tasks) :=
    (h.grow hplace.bound).put hplace.grow ⟨(pairwise_branchIds started branches.length).imp Nat.ne_of_lt, hids⟩
  refine hput.append (pairwise_append.2 ⟨hput.sorted, pairwise_branchTasks started id branches, ?_⟩) ?_
  · intro u hu v hv
    obtain ⟨i, p, -, rfl⟩ := mem_branchTasks hv
    refine Nat.lt_of_lt_of_le ?_ (Nat.le_add_right started i)
    rcases mem_put.1 hu with ⟨hu, -⟩ | rfl
    · exact h.bound u hu
    · exact hplace.bound
  · intro u hu
    obtain ⟨i, p, hp, rfl⟩ := mem_branchTasks hu
    have hmem : started + i ∈ branchIds started branches.length :=
      mem_map_of_mem (mem_range.2 (List.getElem?_eq_some_iff.1 hp).1)
    refine ⟨(hids _ hmem).2, (hids _ hmem).1.symm, rfl, fun q hq => ?_⟩
    cases hq
    exact ⟨nofun, _, mem_put.2 (.inr rfl), rfl, hmem, fun _ => nofun⟩

end TaskTree

namespace Machine

variable {σ : Type} {m : Machine σ} {t : Running} {branches : List (Process Outcome)}
  {next : Except RunError (List Answer) → Process Outcome}

lemma fork_of_none (h : Limit.expired? m.now t.limits = none) : m.fork t branches next =
    { m with running := none,
             tasks := put ⟨t.id, t.parent, t.limits, .branches (branchIds m.started branches.length) [] next⟩
               m.tasks ++ branchTasks m.started t.id branches,
             queue := m.queue ++ branchIds m.started branches.length,
             started := m.started + branches.length } := by
  unfold fork
  dsimp only
  rw [suspend_of_none h]
  rfl

lemma fork_of_expired (htree : TaskTree parent m.started busy m.tasks)
    (h : Limit.expired? m.now t.limits = some (l, rest)) :
    m.fork t branches next = { m with running := some ⟨t.id, t.parent, rest, l.next none⟩ } := by
  have hfresh : ∀ i < m.started, i ∉ branchIds m.started branches.length := by
    intro i hi hmem
    obtain ⟨j, -, rfl⟩ := mem_map.1 hmem
    exact absurd hi (Nat.not_lt.2 (Nat.le_add_right ..))
  have htasks : survivors (branchIds m.started branches.length) m.tasks = m.tasks := by
    refine survivors_eq_self fun u hu => ⟨hfresh u.id (htree.bound u hu), fun p hp => hfresh p ?_⟩
    exact Nat.lt_trans (htree.lower ((htree.parents u hu).symm.trans hp)) (htree.bound u hu)
  unfold fork
  dsimp only
  rw [suspend_of_expired h]
  change { m with tasks := survivors (branchIds m.started branches.length) m.tasks, running := _ } = _
  rw [htasks]

end Machine

end Workflow
