import Workflow.Proofs.Courses

/-!
What processes come to. `Process.Yields` relates a process to each result that some course of events leads to,
so what holds of all these results holds for every client and every order of branches. `Act.Faults` is about the
faults that a process may end in, `Exec.Triple` about the frames as well, and `Exec.Spec` where of a failed
process only the fault matters.
-/

namespace Workflow

namespace Process

/-- A process may come to a result. -/
inductive Yields : {α : Type} → Process α → α → Prop where
  | done {α : Type} (a : α) : Yields (.done a) a
  | tell {α : Type} {notes next} {a : α} (after : Yields (next ()) a) : Yields (.tell notes next) a
  | ask {α : Type} {request next} {a : α}
      (reply : Except ModelError Reply) (after : Yields (next reply) a) : Yields (.ask request next) a
  | sleep {α : Type} {time next} {a : α} (after : Yields (next ()) a) : Yields (.sleep time next) a
  | inTime {α : Type} {limit body next} {a : α} {o} (inside : Yields body o) (after : Yields (next (some o)) a) :
      Yields (.within limit body next) a
  | late {α : Type} {limit body next} {a : α} (after : Yields (next none) a) : Yields (.within limit body next) a
  | joined {α : Type} {count branch next} {a : α} (answers : Fin count → Answer)
      (inside : ∀ i, Yields (branch i) (.ok (answers i)))
      (after : Yields (next (.ok (List.ofFn answers))) a) : Yields (.parallel count branch next) a
  | failed {α : Type} {count branch next} {a : α} {e} (i : Fin count)
      (inside : Yields (branch i) (.error e)) (after : Yields (next (.error e)) a) :
      Yields (.parallel count branch next) a

end Process

variable {α : Type} {a : α} {p : Process α} {e : RunError} {fault : RunFault} {x : Exec α} {post' : α → Frame → Prop}

namespace Process

@[simp] lemma yields_done : (done a).Yields b ↔ b = a := by
  constructor
  · intro h
    cases h
    rfl
  · rintro rfl
    exact .done b

lemma not_yields_stuck : ¬ (stuck : Process α).Yields a := nofun

lemma Course.yields (h : p.Course notes a) : p.Yields a := by
  induction h with
  | done a => exact .done a
  | tell _ ih => exact .tell ih
  | ask reply _ ih => exact .ask reply ih
  | sleep _ ih => exact .sleep ih
  | inTime _ _ inside ih => exact .inTime inside ih
  | late _ ih => exact .late ih
  | joined answers _ _ _ inside ih => exact .joined answers inside ih
  | failed i _ _ inside ih => exact .failed i inside ih

lemma Ends.yields {N : Note → Prop} (h : p.Ends N a) : p.Yields a := by
  obtain ⟨notes, hcourse, -⟩ := h
  exact hcourse.yields

lemma Yields.course (h : p.Yields a) : ∃ notes, p.Course notes a := by
  induction h with
  | done a => exact ⟨[], .done a⟩
  | tell _ ih => exact ih.imp' _ fun _ => .tell
  | ask reply _ ih => exact ih.imp fun _ => .ask reply
  | sleep _ ih => exact ih.imp fun _ => .sleep
  | inTime _ _ inside ih =>
    obtain ⟨told, inside⟩ := inside
    exact ih.imp' _ fun _ => .inTime inside
  | late _ ih => exact ih.imp fun _ => .late
  | joined answers _ _ inside ih =>
    obtain ⟨told, inside⟩ := Classical.axiomOfChoice inside
    exact ih.imp' _ fun _ => .joined answers told inside
  | failed i _ _ inside ih =>
    obtain ⟨told, inside⟩ := inside
    exact ih.imp' _ fun _ => .failed i inside

lemma Yields.of_bind {β : Type} {f : α → Process β} {b : β} (h : (p >>= f).Yields b) :
    ∃ a, p.Yields a ∧ (f a).Yields b := by
  obtain ⟨notes, hcourse⟩ := h.course
  obtain ⟨told, rest, a, -, ha, hb⟩ := hcourse.of_bind
  exact ⟨a, ha.yields, hb.yields⟩

lemma Yields.bind {β : Type} {f : α → Process β} {b : β} (hp : p.Yields a) (hf : (f a).Yields b) : (p >>= f).Yields b := by
  obtain ⟨told, ha⟩ := hp.course
  obtain ⟨rest, hb⟩ := hf.course
  exact (ha.bind hb).yields

lemma yields_branches {ps : List (Process Outcome)} {r : Except RunError (List Answer)}
    (h : (branches ps).Yields r) : (∃ answers, r = .ok answers ∧ answers.length = ps.length) ∨
      ∃ p ∈ ps, ∃ e, r = .error e ∧ p.Yields (.error e) := by
  cases h with
  | joined answers _ after => exact .inl ⟨_, yields_done.1 after, List.length_ofFn⟩
  | failed i inside after =>
    exact .inr ⟨ps.get i, List.get_mem ps i, _, yields_done.1 after, inside⟩

end Process

/-! ### Processes that may fail -/

namespace Act

variable {β : Type} {E : RunFault → Prop}

/-- The faults that a process may end in are of a kind. -/
def Faults (E : RunFault → Prop) (x : Act α) : Prop := ∀ e, x.run.Yields (.error e) → E e.fault

lemma faults_pure (a : α) : Faults E (pure a : Act α) := by
  intro e h
  cases h

lemma faults_throw (h : E e.fault) : Faults E (throw e : Act α) := by
  intro e' h'
  cases h'
  exact h

lemma faults_fail (h : E fault) : Faults E (fail fault : Act α) := faults_throw h

lemma faults_stuck : Faults E (stuck : Act α) := fun _ h => absurd h Process.not_yields_stuck

lemma faults_lift (p : Process α) : Faults E (liftM p : Act α) := by
  intro e h
  obtain ⟨a, -, h⟩ := Process.Yields.of_bind h
  cases h

lemma yields_of_lift (h : (liftM p : Act α).run.Yields (.ok a)) : p.Yields a := by
  obtain ⟨b, hb, h⟩ := Process.Yields.of_bind h
  cases h
  exact hb

lemma faults_ofExcept {x : Except RunFault α} (h : ∀ fault, x = .error fault → E fault) : Faults E (ofExcept x) := by
  cases x with
  | ok a => exact faults_pure a
  | error fault => exact faults_fail (h fault rfl)

lemma Faults.bind {x : Act α} {k : α → Act β} (hx : Faults E x)
    (hk : ∀ a, x.run.Yields (.ok a) → Faults E (k a)) : Faults E (x >>= k) := by
  intro e h
  obtain ⟨r, hr, h⟩ := Process.Yields.of_bind h
  cases r with
  | ok a => exact hk a hr e h
  | error e' =>
    cases h
    exact hx e hr

end Act

/-! ### Processes in a frame -/

@[simp] lemma RunError.fault_located (e : RunError) (site : Site) : (e.located site).fault = e.fault := by
  unfold RunError.located
  split <;> rfl

namespace Exec

variable {β : Type} {E : RunFault → Prop} {pre mid : Frame → Prop} {post : α → Frame → Prop}
  {fails : RunFault → Frame → Prop}

/-- Started in a frame with some property, a process ends in a frame that fits its result or its fault. -/
def Triple (pre : Frame → Prop) (x : Exec α) (post : α → Frame → Prop) (fails : RunFault → Frame → Prop) : Prop :=
  ∀ frame, pre frame → ∀ r frame', (x.run.run frame).Yields (r, frame') → match r with
    | .ok a => post a frame'
    | .error e => fails e.fault frame'

lemma Triple.weaken {pre' : Frame → Prop} {fails' : RunFault → Frame → Prop} (h : Triple pre x post fails)
    (hpre : ∀ f, pre' f → pre f) (hpost : ∀ a f, post a f → post' a f)
    (hfails : ∀ fault f, fails fault f → fails' fault f) : Triple pre' x post' fails' := by
  intro frame hframe r frame' hr
  have hall := h frame (hpre frame hframe) r frame' hr
  cases r with
  | ok a => exact hpost a frame' hall
  | error e => exact hfails e.fault frame' hall

lemma triple_of_pre (h : ∀ f, pre f → Triple pre x post fails) : Triple pre x post fails := fun f hf => h f hf f hf

lemma triple_pure (h : ∀ f, pre f → post a f) : Triple pre (pure a) post fails := by
  intro frame hframe r frame' hr
  cases hr
  exact h frame hframe

lemma triple_throw (h : ∀ f, pre f → fails e.fault f) : Triple pre (throw e) post fails := by
  intro frame hframe r frame' hr
  cases hr
  exact h frame hframe

lemma triple_fail (h : ∀ f, pre f → fails fault f) : Triple pre (fail fault) post fails := triple_throw h

lemma Triple.bind {k : α → Exec β} {post' : β → Frame → Prop} (hx : Triple pre x post fails)
    (hk : ∀ a, Triple (post a) (k a) post' fails) : Triple pre (x >>= k) post' fails := by
  intro frame hframe r frame' hr
  obtain ⟨⟨r₁, frame₁⟩, h₁, h₂⟩ := Process.Yields.of_bind hr
  have hall := hx frame hframe r₁ frame₁ h₁
  cases r₁ with
  | ok a => exact hk a frame₁ hall r frame' h₂
  | error e =>
    cases h₂
    exact hall

lemma triple_get (h : ∀ f, pre f → Triple (· = f) (k f) post fails) :
    Triple pre (get >>= k) post fails := fun f hf r f' hr => h f hf f rfl r f' hr

lemma triple_set (h : ∀ f', pre f' → mid f) : Triple pre (set f) (fun _ => mid) fails := by
  intro frame hframe r frame' hr
  cases hr
  exact h frame hframe

lemma triple_modify (h : ∀ f, pre f → mid (g f)) : Triple pre (modify g) (fun _ => mid) fails := by
  intro frame hframe r frame' hr
  cases hr
  exact h frame hframe

lemma triple_lift (p : Process α) : Triple pre (liftM p) (fun _ => pre) fails := by
  intro frame hframe r frame' hr
  obtain ⟨⟨a, frame₁⟩, h₁, h₂⟩ := Process.Yields.of_bind hr
  obtain ⟨b, -, h₃⟩ := Process.Yields.of_bind h₁
  cases h₃
  cases h₂
  exact hframe

lemma triple_branches {ps : List (Process Outcome)} (h : ∀ p ∈ ps, ∀ e, p.Yields (.error e) → E e.fault) :
    Triple pre (liftM (Process.branches ps)) (fun r f => pre f ∧ match r with
      | .ok answers => answers.length = ps.length
      | .error e => E e.fault) fails := by
  intro frame hframe r frame' hr
  obtain ⟨⟨a, frame₁⟩, h₁, h₂⟩ := Process.Yields.of_bind hr
  obtain ⟨b, hb, h₃⟩ := Process.Yields.of_bind h₁
  cases h₃
  cases h₂
  refine ⟨hframe, ?_⟩
  rcases Process.yields_branches hb with ⟨answers, rfl, hlength⟩ | ⟨p, hp, e, rfl, he⟩
  · exact hlength
  · exact h p hp e he

lemma triple_ofAct {x : Act α} (h : Act.Faults E x) (hfails : ∀ fault f, E fault → pre f → fails fault f) :
    Triple pre (ofAct x) (fun _ => pre) fails := by
  intro frame hframe r frame' hr
  obtain ⟨r₁, h₁, h₂⟩ := Process.Yields.of_bind hr
  cases h₂
  cases r with
  | ok a => exact hframe
  | error e => exact hfails e.fault frame (h e h₁) hframe

lemma Triple.located {i : Instr} (h : Triple pre x post fails) (site : Site) :
    Triple pre (located i site x) post fails := by
  intro frame hframe r frame' hr
  obtain ⟨⟨r₁, frame₁⟩, h₁, h₂⟩ := Process.Yields.of_bind hr
  have hall := h frame hframe r₁ frame₁ h₁
  cases r₁ with
  | ok a =>
    cases h₂
    exact hall
  | error e =>
    rcases h₂ with _ | h₂
    cases h₂
    have hfault : fails (e.located site).fault frame' := (e.fault_located site).symm ▸ hall
    exact hfault

lemma Triple.lastly {last : Exec Unit} {fails' : RunFault → Frame → Prop} (hx : Triple pre x post fails')
    (hfailed : ∀ fault, Triple (fails' fault) last (fun _ => fails fault) fails)
    (hlast : ∀ a, Triple (post a) last (fun _ => post' a) fails) : Triple pre (lastly x last) post' fails := by
  suffices hcaught : Triple pre (tryCatch x fun e => do last; throw e) post fails from
    hcaught.bind fun a => (hlast a).bind fun _ => triple_pure fun _ hf => hf
  intro frame hframe r frame' hr
  obtain ⟨⟨r₁, frame₁⟩, h₁, h₂⟩ := Process.Yields.of_bind hr
  have hall := hx frame hframe r₁ frame₁ h₁
  cases r₁ with
  | ok a =>
    cases h₂
    exact hall
  | error e =>
    have hthrow : Triple (fails' e.fault) (last >>= fun _ => (throw e : Exec α)) post fails :=
      (hfailed e.fault).bind fun _ => triple_throw fun _ hf => hf
    exact hthrow frame₁ hall r frame' h₂

lemma triple_change (hmid : ∀ f, pre f → mid { f with bindings := (g f.bindings).1 })
    (herror : ∀ f e, pre f → (g f.bindings).2 = .error e → fails (.value e) { f with bindings := (g f.bindings).1 }) :
    Triple pre (change g) (fun _ => mid) fails := by
  refine triple_get fun f hf => ?_
  have hset : Triple (· = f) (set { f with bindings := (g f.bindings).1 })
      (fun _ => (· = { f with bindings := (g f.bindings).1 })) fails := triple_set fun _ _ => rfl
  refine hset.bind fun _ => ?_
  cases hresult : (g f.bindings).2 with
  | ok _ => exact triple_pure fun _ heq => heq ▸ hmid f hf
  | error e => exact triple_fail fun _ heq => heq ▸ herror f e hf hresult

/-! ### Faults of processes in a frame -/

/-- Started in a frame with some property, a process ends in a frame that fits its result, or with a fault of a
kind. -/
def Spec (E : RunFault → Prop) (pre : Frame → Prop) (x : Exec α) (post : α → Frame → Prop) : Prop :=
  Triple pre x post fun fault _ => E fault

lemma Spec.weaken {pre' : Frame → Prop} (h : Spec E pre x post) (hpre : ∀ f, pre' f → pre f)
    (hpost : ∀ a f, post a f → post' a f) :
    Spec E pre' x post' := Triple.weaken h hpre hpost fun _ _ => id

lemma Spec.imp (h : Spec E pre x post) (hpost : ∀ a f, post a f → post' a f) : Spec E pre x post' :=
  h.weaken (fun _ => id) hpost

lemma spec_throw (h : E e.fault) : Spec E pre (throw e) post :=
  triple_throw fun _ _ => h

lemma spec_fail (h : E fault) : Spec E pre (fail fault) post := spec_throw h

lemma spec_ofAct {x : Act α} (h : Act.Faults E x) : Spec E pre (ofAct x) fun _ => pre :=
  triple_ofAct h fun _ _ hfault _ => hfault

lemma Spec.lastly {last : Exec Unit} (hx : Spec E pre x post)
    (hfailed : Spec E (fun _ => True) last fun _ _ => True) (hlast : ∀ a, Spec E (post a) last fun _ => post' a) :
    Spec E pre (lastly x last) post' := by
  refine Triple.lastly hx (fun fault => triple_of_pre fun _ hfault => ?_) hlast
  exact Triple.weaken hfailed (fun _ _ => trivial) (fun _ _ _ => hfault) fun _ _ => id

end Exec

end Workflow
