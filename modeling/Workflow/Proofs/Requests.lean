import Mathlib.Logic.Relation
import Workflow.Proofs.Sequel
import Workflow.Proofs.Tasks
import Workflow.Proofs.Trails

/-!
The requests that a machine has made are a trail of the process it started with, and what it comes to is where a
course of that process leads.

A task waits for its branches while they run, and cancels them before it goes on. So what a task and the tasks
below it have asked is a trail of the process that the task started with. What the running task asks is added to
the ledger of every task above it.
-/

namespace Workflow

open List Machine Limit Process Option

variable {limits : List Limit} {ids : List Nat} {next : Except RunError (List Answer) → Process Outcome}
  {since : List Exchange} {id i started : Nat} {t : Task} {parent : Option Nat} {N : Note → Prop}

/-! ### Processes on their way -/

namespace Process

variable {α : Type} {p q s : Process α} {asked more : List Exchange}

/-- A process has asked something and goes on as another, and tells only notes of a kind on the way to its
results. -/
structure Leads (N : Note → Prop) (p : Process α) (asked : List Exchange) (q : Process α) : Prop where
  trail : ∀ {more r}, q.Trail more r → p.Trail (asked ++ more) r
  ends : ∀ {a}, q.Ends N a → p.Ends N a

lemma Leads.refl (p : Process α) : p.Leads N [] p := ⟨id, id⟩

lemma Leads.trans (h : p.Leads N asked q) (h' : q.Leads N more s) : p.Leads N (asked ++ more) s := by
  refine ⟨fun htrail => ?_, fun hends => h.ends (h'.ends hends)⟩
  rw [append_assoc]
  exact h.trail (h'.trail htrail)

lemma Leads.then (h : p.Leads N asked q) (h' : q.Leads N [] s) : p.Leads N asked s :=
  ⟨fun htrail => h.trail (h'.trail htrail), fun hends => h.ends (h'.ends hends)⟩

lemma Leads.within {p q : Process Outcome} (h : p.Leads N asked q) (limit limit' : Duration)
    (next : Option Outcome → Process α) : (within limit p next).Leads N asked (within limit' q next) := by
  constructor
  · intro more r htrail
    cases htrail with
    | here => exact .inside (h.trail (.here : q.Trail [] none))
    | inside within => exact .inside (h.trail within)
    | inTime within after =>
      rw [← append_assoc]
      exact .inTime (h.trail within) after
    | late within after =>
      rw [← append_assoc]
      exact .late (h.trail within) after
  · rintro a ⟨notes, hcourse, hnotes⟩
    cases hcourse with
    | inTime inside after =>
      obtain ⟨htold, hrest⟩ := forall_mem_append.1 hnotes
      exact .inTime (h.ends ⟨_, inside, htold⟩) ⟨_, after, hrest⟩
    | late after => exact ⟨notes, .late after, hnotes⟩

lemma leads_ask {request : Request} {next : Except ModelError Reply → Process α}
    (reply : Except ModelError Reply) : (ask request next).Leads N [⟨request, some reply⟩] (next reply) := by
  refine ⟨fun htrail => .ask reply htrail, ?_⟩
  rintro a ⟨notes, hcourse, hnotes⟩
  exact ⟨notes, .ask reply hcourse, hnotes⟩

lemma leads_late {body : Process Outcome} (h : body.Trail asked none) (limit : Duration)
    (next : Option Outcome → Process α) : (within limit body next).Leads N asked (next none) := by
  refine ⟨fun htrail => .late h htrail, ?_⟩
  rintro a ⟨notes, hcourse, hnotes⟩
  exact ⟨notes, .late hcourse, hnotes⟩

end Process

namespace Limit

variable {p q : Process Outcome} {asked : List Exchange}

/-- A process under limits, the innermost first. -/
def around : List Limit → Process Outcome → Process Outcome
  | [], p => p
  | l :: rest, p => around rest (.within l.deadline p l.next)

lemma leads_around (h : p.Leads N asked q) (limits : List Limit) :
    (around limits p).Leads N asked (around limits q) := by
  induction limits generalizing p q with
  | nil => exact h
  | cons l rest ih => exact ih (h.within _ _ _)

lemma trail_around (h : p.Trail asked none) (limits : List Limit) : (around limits p).Trail asked none := by
  induction limits generalizing p with
  | nil => exact h
  | cons l rest ih => exact ih (.inside h)

lemma leads_expired {now : Time} (h : expired? now limits = some (l, rest)) (hp : p.Trail asked none) :
    (around limits p).Leads N asked (around rest (l.next none)) := by
  induction limits generalizing p with
  | nil => cases h
  | cons first others ih =>
    unfold expired? at h
    split at h
    · cases h
      exact leads_around (leads_late hp ..) _
    · exact ih h (.inside hp)

end Limit

/-! ### The ledger of a task -/

/-- What is known of each task that was ever started: its process, its parent, and what it and the tasks below
it have asked. -/
structure Ledger (N : Note → Prop) where
  origin : Nat → Process Outcome
  parent : Nat → Option Nat
  asked : Nat → List Exchange

namespace Ledger

variable {l : Ledger N} {w : Wait} {branches : List (Process Outcome)}

/-- The branches of a parallel process, each as it was started. -/
def parallel (l : Ledger N) (ids : List Nat) (next : Except RunError (List Answer) → Process Outcome) :
    Process Outcome :=
  .parallel ids.length (fun i => l.origin (ids.get i)) next

/-- A task has come to its end with an outcome. -/
structure EndsIn (l : Ledger N) (id : Nat) (o : Outcome) : Prop where
  trail : (l.origin id).Trail (l.asked id) (some o)
  ends : (l.origin id).Ends N o

lemma EndsIn.congr {l' : Ledger N} {o : Outcome} (h : l.EndsIn id o) (horigin : l'.origin id = l.origin id)
    (hasked : l'.asked id = l.asked id) : l'.EndsIn id o :=
  ⟨horigin.symm ▸ hasked.symm ▸ h.trail, horigin.symm ▸ h.ends⟩

/-- The ledger of a task that waits for branches: what it had asked before, and what they have asked since. -/
structure Branching (l : Ledger N) (id : Nat) (limits : List Limit) (ids : List Nat)
    (finished : List (Nat × Outcome)) (next : Except RunError (List Answer) → Process Outcome)
    (before since : List Exchange) : Prop where
  asked : l.asked id = before ++ since
  leads : (l.origin id).Leads N before (around limits (l.parallel ids next))
  order : Interleaves (fun i : Fin ids.length => l.asked (ids.get i)) since
  finished : ∀ x ∈ finished, x.1 ∈ ids ∧ l.EndsIn x.1 x.2

/-- What is left of a task that waits follows what the task has asked. -/
def Waits (l : Ledger N) (id : Nat) (limits : List Limit) : Wait → Prop
  | .turn p => (l.origin id).Leads N (l.asked id) (around limits p)
  | .clock _ p => (l.origin id).Leads N (l.asked id) (around limits p)
  | .branches ids finished next => ∃ before since, l.Branching id limits ids finished next before since

lemma trail_parallel (horder : Interleaves (fun i : Fin ids.length => l.asked (ids.get i)) since)
    (htrails : ∀ id ∈ ids, (l.origin id).Trail (l.asked id) none) : (l.parallel ids next).Trail since none :=
  .beside (fun i => htrails (ids.get i) (get_mem ids i)) horder

lemma Waits.trail (h : l.Waits id limits w) (htrails : ∀ i ∈ w.ids, (l.origin i).Trail (l.asked i) none) :
    (l.origin id).Trail (l.asked id) none := by
  cases w with
  | branches ids finished next =>
    obtain ⟨before, since, h⟩ := h
    rw [h.asked]
    exact h.leads.trail (trail_around (trail_parallel h.order htrails) limits)
  | _ => exact append_nil (l.asked id) ▸ h.trail .here

lemma Waits.congr {l' : Ledger N} (h : l.Waits id limits w)
    (horigin : ∀ i ∈ id :: w.ids, l'.origin i = l.origin i) (hasked : ∀ i ∈ id :: w.ids, l'.asked i = l.asked i) :
    l'.Waits id limits w := by
  obtain ⟨hid, hids⟩ := forall_mem_cons.1 horigin
  obtain ⟨hself, hbranches⟩ := forall_mem_cons.1 hasked
  cases w with
  | turn p | clock time p =>
    rw [Waits, hid, hself]
    exact h
  | branches ids finished next =>
    obtain ⟨before, since, h⟩ := h
    have hparts : (fun i : Fin ids.length => l'.asked (ids.get i)) = fun i => l.asked (ids.get i) :=
      funext fun i => hbranches _ (get_mem ids i)
    have hparallel : l'.parallel ids next = l.parallel ids next :=
      congrArg (Process.parallel _ · next) (funext fun i => hids _ (get_mem ids i))
    refine ⟨before, since, hself.trans h.asked, ?_, ?_, fun x hx => ?_⟩
    · rw [hid, hparallel]
      exact h.leads
    · rw [hparts]
      exact h.order
    · obtain ⟨hmem, hend⟩ := h.finished x hx
      exact ⟨hmem, hend.congr (hids x.1 hmem) (hbranches x.1 hmem)⟩

lemma Waits.report (h : l.Waits t.id t.limits t.wait) (hend : l.EndsIn branch o) :
    l.Waits (report branch o t).id (report branch o t).limits (report branch o t).wait := by
  obtain ⟨id, parent, limits, w⟩ := t
  cases w with
  | branches ids finished next =>
    unfold report
    dsimp only
    split
    · next hmem =>
      obtain ⟨before, since, h⟩ := h
      exact ⟨before, since, h.asked, h.leads, h.order,
        forall_mem_append.2 ⟨h.finished, forall_mem_singleton.2 ⟨contains_iff_mem.1 hmem, hend⟩⟩⟩
    · exact h
  | _ => exact h

lemma Branching.joined {finished : List (Nat × Outcome)} {before : List Exchange}
    (h : l.Branching id limits ids finished next before since)
    (htrails : ∀ i, (l.origin i).Trail (l.asked i) none) {r : Except RunError (List Answer)}
    (hr : joined? ids finished = some r) : (l.parallel ids next).Leads N since (next r) := by
  unfold joined? at hr
  split at hr
  · next e hfailure =>
    cases hr
    obtain ⟨id, hmem⟩ := firstFailure_mem hfailure
    obtain ⟨hid, hend⟩ := h.finished _ hmem
    obtain ⟨i, rfl⟩ := get_of_mem hid
    -- of the other branches nothing is known but what they have asked
    have htrail : ∀ j : Fin ids.length, (l.origin (ids.get j)).Trail (l.asked (ids.get j))
        (Function.update (fun _ => none) i (some (.error e)) j) := by
      intro j
      by_cases hij : j = i
      · subst hij
        rw [Function.update_self]
        exact hend.trail
      · rw [Function.update_of_ne hij]
        exact htrails _
    exact ⟨.failed i (Function.update_self ..) htrail h.order, .failed i hend.ends⟩
  · obtain ⟨answers, hanswers, rfl⟩ := map_eq_some_iff.1 hr
    obtain ⟨hlength, hget⟩ := getElem?_of_mapM hanswers
    have hend : ∀ i : Fin ids.length, l.EndsIn (ids.get i) (.ok (answers.get (i.cast hlength))) := by
      intro i
      obtain ⟨id, hid, hanswer⟩ := hget i (answers.get (i.cast hlength)) (List.getElem?_eq_getElem _)
      obtain rfl : ids.get i = id := some.inj ((List.getElem?_eq_getElem i.isLt).symm.trans hid)
      exact (h.finished _ (mem_of_answerOf hanswer)).2
    have hall : List.ofFn (fun i : Fin ids.length => answers.get (i.cast hlength)) = answers := by
      refine ext_getElem (by simp [hlength]) fun i _ _ => ?_
      simp
    refine ⟨fun hmore => .joined _ (fun i => (hend i).trail) h.order ?_,
      fun hmore => .joined _ (fun i => (hend i).ends) ?_⟩ <;>
    rwa [hall]

def Below (l : Ledger N) : Nat → Nat → Prop := Relation.ReflTransGen fun id p => l.parent id = some p

lemma Below.unique (hlower : ∀ {id p : Nat}, l.parent id = some p → p < id) {j p : Nat} (hi : l.Below id i)
    (hj : l.Below id j) (hip : l.parent i = some p) (hjp : l.parent j = some p) : i = j := by
  have hle : ∀ {i j : Nat}, l.Below i j → j ≤ i := by
    intro i j h
    induction h with
    | refl => exact .refl
    | tail _ hp ih => exact Nat.le_trans (Nat.le_of_lt (hlower hp)) ih
  -- if one were below the other, then so would be their parent
  have hnot : ∀ {i j : Nat}, l.Below i j → l.parent i = some p → l.parent j = some p → i = j := by
    intro i j h hip hjp
    rcases Relation.ReflTransGen.cases_head h with rfl | ⟨q, hq, hqj⟩
    · rfl
    · cases hip.symm.trans hq
      exact absurd (hle hqj) (Nat.not_le.2 (hlower hjp))
  have hright : Relator.RightUnique fun id p => l.parent id = some p :=
    fun _ _ _ hb hc => some.inj (hb.symm.trans hc)
  rcases hi.total_of_right_unique hright hj with h | h
  · exact hnot h hip hjp
  · exact (hnot h hjp hip).symm

open Classical in
/-- What a task asks is asked by all tasks that it is below. -/
noncomputable def ask (l : Ledger N) (id : Nat) (x : Exchange) : Ledger N :=
  { l with asked := fun i => if l.Below id i then l.asked i ++ [x] else l.asked i }

def fork (l : Ledger N) (started id : Nat) (branches : List (Process Outcome)) : Ledger N where
  origin i := if i < started then l.origin i else branches.getD (i - started) .stuck
  parent := forked l.parent started id
  asked i := if i < started then l.asked i else []

lemma origin_fork : (l.fork started id branches).origin (started + i) = branches.getD i .stuck := by
  have hge : ¬ started + i < started := by omega
  simp [fork, hge]

lemma asked_fork : (l.fork started id branches).asked (started + i) = [] := by
  have hge : ¬ started + i < started := by omega
  simp [fork, hge]

end Ledger

/-! ### The ledger of a machine -/

namespace Ledger

variable {σ : Type} {l : Ledger N} {root : Process Outcome} {m : Machine σ} {busy : Option Nat}

/-- The ledger is right about all waiting tasks and about the requests that were made. -/
structure Pool (l : Ledger N) (root : Process Outcome) (busy : Option Nat) (m : Machine σ) : Prop where
  tree : TaskTree l.parent m.started busy m.tasks
  waits : ∀ t ∈ m.tasks, busy ≠ some t.id → l.Waits t.id t.limits t.wait
  trails : ∀ id, (l.origin id).Trail (l.asked id) none
  origin : l.origin 0 = root
  requests : (l.asked 0).map (·.request) = m.requests.reverse
  result : ∀ o ∈ m.result, l.EndsIn 0 o

/-- A task that runs has its place, and what is left of it follows what it has asked. -/
structure Runs (l : Ledger N) (m : Machine σ) (id : Nat) (parent : Option Nat) (limits : List Limit)
    (p : Process Outcome) : Prop where
  place : TaskTree.Place l.parent m.started m.tasks id parent
  leads : (l.origin id).Leads N (l.asked id) (around limits p)

/-- The ledger is right about all tasks. -/
structure Kept (l : Ledger N) (root : Process Outcome) (m : Machine σ) : Prop extends
    Pool l root (m.running.map (·.id)) m where
  running : ∀ t ∈ m.running, l.Runs m t.id t.parent t.limits t.process

section Ask

variable {x : Exchange}

lemma asked_of_below (h : l.Below id i) : (l.ask id x).asked i = l.asked i ++ [x] := if_pos h

lemma asked_of_not_below (h : ¬ l.Below id i) : (l.ask id x).asked i = l.asked i := if_neg h

lemma Pool.above (h : l.Pool root (some id) m) (hplace : TaskTree.Place l.parent m.started m.tasks id parent)
    (hbelow : l.Below id i) :
    i = id ∨ ∃ u ∈ m.tasks, u.id = i ∧ ∃ j, l.Below id j ∧ l.parent j = some i ∧ u.Expects j := by
  induction hbelow with
  | refl => exact .inl rfl
  | @tail j i hj hparent ih =>
    rcases ih with rfl | ⟨u, hu, rfl, -⟩
    · obtain ⟨-, v, hv, rfl, hexpects⟩ := hplace.awaited i (hplace.parent.trans hparent)
      exact .inr ⟨v, hv, rfl, j, hj, hparent, hexpects⟩
    · obtain ⟨-, v, hv, rfl, hexpects⟩ := h.tree.awaited u hu i ((h.tree.parents u hu).trans hparent)
      exact .inr ⟨v, hv, rfl, u.id, hj, hparent, hexpects⟩

lemma Pool.below_root (h : l.Pool root busy m) (hi : i < m.started) : l.Below i 0 := by
  induction i using Nat.strongRecOn with
  | ind i ih =>
    cases hp : l.parent i with
    | none =>
      rw [h.tree.first hi hp]
      exact .refl
    | some p =>
      have hlt := h.tree.lower hp
      exact .head hp (ih p hlt (Nat.lt_trans hlt hi))

lemma Branching.ask {j : Nat} {finished : List (Nat × Outcome)} {before : List Exchange}
    (h : l.Branching i limits ids finished next before since) (hnodup : ids.Nodup) (hi : l.Below id i)
    (hids : ∀ k ∈ ids, l.Below id k ↔ k = j) (hj : j ∈ ids) (hopen : ∀ o, (j, o) ∉ finished) :
    (l.ask id x).Branching i limits ids finished next before (since ++ [x]) := by
  obtain ⟨k, rfl⟩ := get_of_mem hj
  have hother : ∀ n ∈ ids, n ≠ ids.get k → (l.ask id x).asked n = l.asked n :=
    fun n hn hne => asked_of_not_below fun hbelow => hne ((hids n hn).1 hbelow)
  refine ⟨?_, h.leads, ?_, fun y hy => ?_⟩
  · rw [asked_of_below hi, h.asked, append_assoc]
  · have hparts : (fun n : Fin ids.length => (l.ask id x).asked (ids.get n)) =
        Function.update (fun n : Fin ids.length => l.asked (ids.get n)) k (l.asked (ids.get k) ++ [x]) := by
      funext n
      by_cases hn : n = k
      · subst hn
        rw [Function.update_self, asked_of_below ((hids _ hj).2 rfl)]
      · rw [Function.update_of_ne hn]
        exact hother _ (get_mem ids n) fun heq => hn (hnodup.get_inj_iff.1 heq)
    rw [hparts]
    exact h.order.snoc k x
  · obtain ⟨hmem, hend⟩ := h.finished y hy
    exact ⟨hmem, hend.congr rfl (hother y.1 hmem fun heq => hopen y.2 (heq ▸ hy))⟩

lemma Pool.waits_ask (h : l.Pool root (some id) m)
    (hplace : TaskTree.Place l.parent m.started m.tasks id parent) {u : Task} (hu : u ∈ m.tasks)
    (hne : some id ≠ some u.id) : (l.ask id x).Waits u.id u.limits u.wait := by
  have hwaits := h.waits u hu hne
  obtain ⟨hnodup, hids⟩ := h.tree.branches u hu
  by_cases hbelow : l.Below id u.id
  · rcases h.above hplace hbelow with heq | ⟨v, hv, hid, j, hj, hparent, hexpects⟩
    · exact absurd (congrArg some heq.symm) hne
    · obtain rfl := h.tree.unique hv hu hid
      obtain ⟨i, up, limits, w⟩ := v
      cases w with
      | branches ids finished next =>
        obtain ⟨before, since, hwaits⟩ := hwaits
        refine ⟨before, since ++ [x], hwaits.ask hnodup hbelow (fun k hk => ⟨fun hk' => ?_, ?_⟩) hexpects.1 hexpects.2⟩
        · exact hk'.unique h.tree.lower hj (hids k hk).1 hparent
        · rintro rfl
          exact hj
      | _ => exact absurd hexpects.1 not_mem_nil
  · exact hwaits.congr (fun _ _ => rfl) (forall_mem_cons.2 ⟨asked_of_not_below hbelow, fun i hi =>
      asked_of_not_below fun hi' => hbelow (hi'.tail (hids i hi).1)⟩)

lemma Pool.ask (h : l.Pool root (some id) m) (hresult : m.result = none) {request : Request}
    {next : Except ModelError Reply → Process Outcome} (hruns : l.Runs m id parent limits (.ask request next))
    (client : σ) (reply : Except ModelError Reply) :
    (l.ask id ⟨request, some reply⟩).Pool root (some id)
        { m with client := client, requests := request :: m.requests } ∧
      (l.ask id ⟨request, some reply⟩).Runs { m with client := client, requests := request :: m.requests } id
        parent limits (next reply) := by
  have hself : (l.ask id ⟨request, some reply⟩).asked id = l.asked id ++ [⟨request, some reply⟩] :=
    asked_of_below .refl
  have hfirst : (l.origin id).Trail ((l.ask id ⟨request, some reply⟩).asked id) none := by
    rw [hself]
    exact hruns.leads.trail (trail_around (.ask reply .here) limits)
  have hwaits : ∀ u ∈ m.tasks, some id ≠ some u.id → (l.ask id ⟨request, some reply⟩).Waits u.id u.limits u.wait :=
    fun u hu hne => h.waits_ask hruns.place hu hne
  refine ⟨⟨h.tree, hwaits, fun i => ?_, h.origin, ?_, fun o ho => ?_⟩, hruns.place, ?_⟩
  · by_cases hbelow : l.Below id i
    · induction hbelow with
      | refl => exact hfirst
      | @tail j i hj hparent ih =>
        rcases h.above hruns.place (hj.tail hparent) with rfl | ⟨u, hu, rfl, -⟩
        · exact hfirst
        · by_cases hne : id = u.id
          · exact hne ▸ hfirst
          -- a task above waits for this branch, and its other branches have asked nothing more
          refine (hwaits u hu fun heq => hne (some.inj heq)).trail fun k hk => ?_
          by_cases hkj : k = j
          · exact hkj ▸ ih
          · have hnot : ¬ l.Below id k := fun hk' =>
              hkj (hk'.unique h.tree.lower hj ((h.tree.branches u hu).2 k hk).1 hparent)
            rw [asked_of_not_below hnot]
            exact h.trails k
    · rw [asked_of_not_below hbelow]
      exact h.trails i
  · rw [asked_of_below (h.below_root hruns.place.bound), map_append, h.requests]
    exact reverse_cons.symm
  · rw [hresult] at ho
    cases ho
  · rw [hself]
    exact hruns.leads.trans (leads_around (leads_ask reply) limits)

end Ask

/-! ### Steps -/

section Steps

variable {rest : List Limit} {p q : Process Outcome} {count : Nat} {branch : Fin count → Process Outcome}

lemma Runs.goes (h : l.Runs m id parent limits p) (hgoes : p.Leads N [] q) : l.Runs m id parent limits q :=
  ⟨h.place, h.leads.then (leads_around hgoes limits)⟩

lemma Runs.expired (h : l.Runs m id parent limits p) {now : Time} (hdue : expired? now limits = some (due, rest)) :
    l.Runs m id parent rest (due.next none) :=
  ⟨h.place, h.leads.then (leads_expired hdue .here)⟩

lemma Pool.resume (h : l.Pool root (some id) m) (hruns : l.Runs m id parent limits p) :
    l.Kept root { m with running := some ⟨id, parent, limits, p⟩ } :=
  ⟨{ h with }, fun _ hu => some.inj hu ▸ ⟨hruns.place, hruns.leads⟩⟩

lemma Pool.idle (h : l.Pool root none m) (hrunning : m.running = none) : l.Kept root m := by
  refine ⟨by rwa [hrunning], fun t ht => ?_⟩
  rw [hrunning] at ht
  cases ht

lemma Pool.suspend (h : l.Pool root (some id) m) (hruns : l.Runs m id parent limits p) (time : Time) :
    l.Kept root (m.suspend id parent limits (.clock time p)) := by
  cases hdue : expired? m.now limits with
  | some due =>
    rw [suspend_of_expired hdue]
    dsimp only [Wait.ids]
    rw [survivors_nil]
    exact h.resume (hruns.expired hdue)
  | none =>
    rw [suspend_of_none hdue]
    refine Pool.idle ⟨h.tree.put hruns.place ⟨.nil, nofun⟩, fun u hu _ => ?_, h.trails, h.origin,
      h.requests, h.result⟩ rfl
    rcases mem_put.1 hu with ⟨hu, hne⟩ | rfl
    · exact h.waits u hu fun heq => hne (some.inj heq).symm
    · exact hruns.leads

lemma Pool.finish {t : Running} (h : l.Pool root (some t.id) m) (hruns : l.Runs m t.id t.parent [] (.done o)) :
    l.Kept root (m.finish t o) := by
  have hend : l.EndsIn t.id o :=
    ⟨append_nil (l.asked t.id) ▸ hruns.leads.trail (.done o), hruns.leads.ends (.done o)⟩
  have hwaits : ∀ u ∈ m.tasks.filter (·.id ≠ t.id), l.Waits u.id u.limits u.wait := by
    intro u hu
    obtain ⟨hu, hne⟩ := mem_filter.1 hu
    exact h.waits u hu fun heq => of_decide_eq_true hne (some.inj heq).symm
  unfold Machine.finish
  dsimp only
  split
  · next hnone =>
    refine Pool.idle ⟨h.tree.remove, fun u hu _ => hwaits u hu, h.trails, h.origin, h.requests, fun r hr => ?_⟩ rfl
    cases hr
    rwa [h.tree.first hruns.place.bound (hruns.place.parent.symm.trans hnone)] at hend
  · next p _ =>
    have htree := h.tree.remove.report (fun u hu => of_decide_eq_true (mem_filter.1 hu).2) p o
    have hreported : ∀ u ∈ (m.tasks.filter (·.id ≠ t.id)).map (fun u =>
        if u.id = p then report t.id o u else u), l.Waits u.id u.limits u.wait := by
      refine forall_mem_map.2 fun u hu => ?_
      split
      · exact (hwaits u hu).report hend
      · exact hwaits u hu
    unfold enqueue
    split <;> exact Pool.idle ⟨htree, fun u hu _ => hreported u hu, h.trails, h.origin, h.requests, h.result⟩ rfl

lemma Pool.grow (h : l.Pool root (some id) m) (hplace : TaskTree.Place l.parent m.started m.tasks id parent)
    (branches : List (Process Outcome)) :
    (l.fork m.started id branches).Pool root (some id) { m with started := m.started + branches.length } := by
  have hpos : 0 < m.started := Nat.zero_lt_of_lt hplace.bound
  have hasked : (l.fork m.started id branches).asked 0 = l.asked 0 := if_pos hpos
  refine ⟨h.tree.grow hplace.bound, fun u hu hne => ?_, fun i => ?_, (if_pos hpos).trans h.origin,
    hasked.symm ▸ h.requests, fun o ho => (h.result o ho).congr (if_pos hpos) hasked⟩
  · have hbound : ∀ i ∈ u.id :: u.wait.ids, i < m.started :=
      forall_mem_cons.2 ⟨h.tree.bound u hu, fun i hi => ((h.tree.branches u hu).2 i hi).2⟩
    exact (h.waits u hu hne).congr (fun i hi => if_pos (hbound i hi)) fun i hi => if_pos (hbound i hi)
  · unfold Ledger.fork
    dsimp only
    split
    · exact h.trails i
    · exact .here

lemma parallel_fork :
    (l.fork started id (List.ofFn branch)).parallel (branchIds started (List.ofFn branch).length) next =
      .parallel count branch next := by
  have hsame : ∀ {n : Nat} (f : Fin n → Process Outcome) (hn : n = count),
      (∀ i, f i = branch (i.cast hn)) → Process.parallel n f next = .parallel count branch next := by
    rintro n f rfl hf
    exact congrArg (Process.parallel n · next) (funext hf)
  refine hsame _ (by simp) fun i => ?_
  have hi : i.val < count := by simpa using i.isLt
  rw [get_eq_getElem, getElem_branchIds, origin_fork, List.getD_eq_getElem?_getD, List.getElem?_ofFn, dif_pos hi]
  rfl

lemma Pool.fork {t : Running} (h : l.Pool root (some t.id) m)
    (hruns : l.Runs m t.id t.parent t.limits (.parallel count branch next)) :
    ∃ l' : Ledger N, l'.Kept root (m.fork t (List.ofFn branch) next) := by
  cases hdue : expired? m.now t.limits with
  | some due =>
    rw [fork_of_expired h.tree hdue]
    exact ⟨l, h.resume (hruns.expired hdue)⟩
  | none =>
    rw [fork_of_none hdue]
    have hpool := h.grow hruns.place (List.ofFn branch)
    refine ⟨l.fork m.started t.id (List.ofFn branch), Pool.idle ⟨h.tree.fork hruns.place .., fun u hu _ => ?_,
      hpool.trails, hpool.origin, hpool.requests, hpool.result⟩ rfl⟩
    rcases mem_append.1 hu with hu | hu
    · rcases mem_put.1 hu with ⟨hu, hne⟩ | rfl
      · exact hpool.waits u hu fun heq => hne (some.inj heq).symm
      · refine ⟨l.asked t.id, [], ?_, ?_, ?_, nofun⟩
        · exact (if_pos hruns.place.bound).trans (append_nil _).symm
        · have horigin : (l.fork m.started t.id (List.ofFn branch)).origin t.id = l.origin t.id :=
            if_pos hruns.place.bound
          rw [parallel_fork, horigin]
          exact hruns.leads
        · have hnone : (fun i : Fin (branchIds m.started (List.ofFn branch).length).length =>
              (l.fork m.started t.id (List.ofFn branch)).asked ((branchIds m.started _).get i)) = fun _ => [] := by
            funext i
            rw [get_eq_getElem, getElem_branchIds, asked_fork]
          rw [hnone]
          exact .nil
    · obtain ⟨i, p, hp, rfl⟩ := mem_branchTasks hu
      rw [Waits, asked_fork, origin_fork, List.getD_eq_getElem?_getD, hp]
      exact Process.Leads.refl p

lemma Pool.advance {t : Running} (h : l.Pool root (some t.id) m)
    (hruns : l.Runs m t.id t.parent t.limits t.process) (hrunning : m.running = some t)
    (hresult : m.result = none) (c : Client σ) (hnotes : ∀ n ∈ told t, N n) :
    ∃ l' : Ledger N, l'.Kept root (m.advance c t) := by
  obtain ⟨id, parent, limits, process⟩ := t
  dsimp only at h hruns
  unfold Machine.advance
  cases process with
  | done o =>
    cases limits with
    | nil => exact ⟨l, h.finish hruns⟩
    | cons due rest =>
      have hleads : (within due.deadline (.done o) due.next).Leads N [] (due.next (some o)) :=
        ⟨.inTime (.done o), .inTime (.done o)⟩
      exact ⟨l, h.resume ⟨hruns.place, hruns.leads.then (leads_around hleads rest)⟩⟩
  | stuck =>
    have hpool : l.Pool root (m.running.map (·.id)) m := by rwa [hrunning]
    refine ⟨l, ⟨hpool.tree, hpool.waits, h.trails, h.origin, h.requests, h.result⟩, fun u hu => ?_⟩
    cases hrunning.symm.trans hu
    exact ⟨hruns.place, hruns.leads⟩
  | tell notes next =>
    have hpool : l.Pool root (some id) { m with notes := notes.reverse ++ m.notes } :=
      { h with }
    exact ⟨l, hpool.resume ⟨hruns.place, (hruns.goes ⟨.tell, .tell hnotes⟩).leads⟩⟩
  | ask request next =>
    rcases hreply : c.answer m.client request with ⟨client, delay, reply⟩
    simp only [hreply]
    obtain ⟨hpool, hasks⟩ := h.ask hresult hruns client reply
    refine ⟨l.ask id ⟨request, some reply⟩, ?_⟩
    split
    · exact hpool.resume hasks
    · exact hpool.suspend hasks _
  | sleep time next =>
    have hleads : (sleep time next).Leads N [] (next ()) :=
      ⟨.sleep, fun ⟨notes, hcourse, hnotes⟩ => ⟨notes, .sleep hcourse, hnotes⟩⟩
    have hsleeps : l.Runs m id parent limits (next ()) := hruns.goes hleads
    refine ⟨l, ?_⟩
    dsimp only
    split
    · exact h.resume hsleeps
    · exact h.suspend hsleeps _
  | within limit body next =>
    have hleads := (Process.Leads.refl (N := N) body).within limit (Duration.after m.now limit) next
    exact ⟨l, h.resume ⟨hruns.place, hruns.leads.then (leads_around hleads limits)⟩⟩
  | parallel count branch next =>
    cases count with
    | zero =>
      have hleads : (Process.parallel 0 branch next).Leads N [] (next (.ok [])) :=
        ⟨.joined (fun i => i.elim0) (fun i => i.elim0) .nil, .joined (fun i => i.elim0) (fun i => i.elim0)⟩
      exact ⟨l, h.resume (hruns.goes hleads)⟩
    | succ n => exact h.fork hruns

lemma Pool.claim (h : l.Pool root none m) (ht : t ∈ m.tasks) :
    l.Pool root (some t.id) { m with tasks := survivors t.wait.ids m.tasks } ∧
      TaskTree.Place l.parent m.started (survivors t.wait.ids m.tasks) t.id t.parent := by
  obtain ⟨htree, hplace⟩ := h.tree.claim ht
  refine ⟨⟨htree, fun u hu _ => ?_, h.trails, h.origin, h.requests, h.result⟩, hplace⟩
  exact h.waits u ((sublist_survivors _ _).mem hu) (some_ne_none _).symm

lemma Pool.wake (h : l.Pool root none m) (ht : t ∈ m.tasks) : l.Kept root (m.wake t) := by
  have hwaits := h.waits t ht (some_ne_none _).symm
  obtain ⟨hpool, hplace⟩ := h.claim ht
  have hsame := h.tree.put_eq_self ht
  obtain ⟨id, parent, limits, w⟩ := t
  unfold wake
  cases w with
  | turn p =>
    dsimp only [Wait.ids] at hpool hplace
    rw [survivors_nil] at hpool hplace
    exact hpool.resume ⟨hplace, hwaits⟩
  | clock time p =>
    dsimp only [Wait.ids] at hpool hplace ⊢
    rw [survivors_nil] at hpool hplace
    split
    · exact hpool.resume ⟨hplace, hwaits⟩
    · exact hpool.suspend ⟨hplace, hwaits⟩ time
  | branches ids finished next =>
    obtain ⟨before, since, hbranching⟩ := hwaits
    dsimp only
    split
    · next r hjoined =>
      rw [cancel_eq]
      refine hpool.resume ⟨hplace, ?_⟩
      rw [hbranching.asked]
      exact hbranching.leads.trans (leads_around (hbranching.joined h.trails hjoined) limits)
    · cases hdue : expired? m.now limits with
      | some due =>
        rw [suspend_of_expired hdue]
        refine hpool.resume ⟨hplace, ?_⟩
        rw [hbranching.asked]
        exact hbranching.leads.trans (leads_expired hdue (trail_parallel hbranching.order fun i _ => h.trails i))
      | none =>
        rw [suspend_of_none hdue, hsame]
        exact Pool.idle { h with } rfl

lemma Kept.step (h : l.Kept root m) (hresult : m.result = none) (c : Client σ)
    (hnotes : ∀ n ∈ (m.step c).notes, N n) : ∃ l' : Ledger N, l'.Kept root (m.step c) := by
  rw [notes_step] at hnotes
  have hpool := h.toPool
  unfold Machine.step
  split
  · next t hrunning =>
    rw [hrunning] at hpool hnotes
    exact hpool.advance (h.running t hrunning) hrunning hresult c fun n hn =>
      hnotes n (mem_append_left _ (mem_reverse.2 hn))
  · next hrunning =>
    refine ⟨l, ?_⟩
    rw [hrunning] at hpool
    split
    · next id rest _ =>
      have hidle : l.Pool root none { m with queue := rest } :=
        ⟨hpool.tree, hpool.waits, h.trails, h.origin, h.requests, h.result⟩
      dsimp only
      split
      · next t hfind => exact hidle.wake (List.mem_of_find?_eq_some hfind)
      · refine ⟨{ h with }, fun t ht => ?_⟩
        exact ⟨(h.running t ht).place, (h.running t ht).leads⟩
    · unfold jump
      split <;> exact ⟨{ h with },
          fun t ht => ⟨(h.running t ht).place, (h.running t ht).leads⟩⟩

end Steps

def start (p : Process Outcome) : Ledger N := ⟨fun _ => p, fun _ => none, fun _ => []⟩

lemma kept_start (client : σ) (p : Process Outcome) : (start (N := N) p).Kept p (Machine.start client p) := by
  have htree : TaskTree (start (N := N) p).parent 1 (some 0) [] :=
    ⟨.nil, nofun, nofun, nofun, fun h _ => Nat.lt_one_iff.1 h, nofun, nofun⟩
  refine ⟨⟨htree, nofun, fun _ => .here, rfl, rfl, nofun⟩, fun t ht => ?_⟩
  cases ht
  exact ⟨⟨Nat.one_pos, rfl, .inl rfl, nofun⟩, Process.Leads.refl p⟩

lemma Kept.run (c : Client σ) (fuel : Nat) (h : l.Kept root m) (hnotes : ∀ n ∈ (m.run c fuel).notes, N n) :
    ∃ l' : Ledger N, l'.Kept root (m.run c fuel) := by
  induction fuel generalizing l m with
  | zero => exact ⟨l, h⟩
  | succ fuel ih =>
    cases hover : m.isOver with
    | true =>
      rw [run_of_isOver _ hover]
      exact ⟨l, h⟩
    | false =>
      have hresult : m.result = none := by
        cases hr : m.result with
        | none => rfl
        | some o =>
          rw [isOver, hr] at hover
          cases hover
      rw [run_succ fuel hover] at hnotes ⊢
      obtain ⟨l', hstep⟩ := h.step hresult c fun n hn => hnotes n (mem_notes_run c fuel hn)
      exact ih hstep hnotes

end Ledger

namespace Machine

variable {σ : Type} {c : Client σ} {client : σ} {fuel : Nat} {p : Process Outcome} {o : Outcome}

/-- The requests that a machine has made, in their order, are a trail of its process, which ends in the result
if there is one. -/
lemma trail_of_run (c : Client σ) (client : σ) (fuel : Nat) (p : Process Outcome) :
    ∃ asked, asked.map (·.request) = (run c fuel (start client p)).requests.reverse ∧
      p.Trail asked (run c fuel (start client p)).result := by
  obtain ⟨l, h⟩ := (Ledger.kept_start (N := fun _ => True) client p).run c fuel fun _ _ => trivial
  refine ⟨l.asked 0, h.requests, ?_⟩
  cases hresult : (run c fuel (start client p)).result with
  | none => exact h.origin ▸ h.trails 0
  | some o => exact h.origin ▸ (h.result o hresult).trail

/-- What a machine comes to is where a course of its process leads, all of which it has noted down. -/
lemma ends_of_run (h : (run c fuel (start client p)).result = some o) :
    p.Ends (· ∈ (run c fuel (start client p)).notes) o := by
  obtain ⟨l, hkept⟩ := (Ledger.kept_start client p).run c fuel fun _ hn => hn
  have hends := (hkept.result o h).ends
  rwa [hkept.origin] at hends

lemma yields_of_run (h : (run c fuel (start client p)).result = some o) : p.Yields o :=
  (ends_of_run h).yields

end Machine

end Workflow
