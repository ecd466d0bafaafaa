import Workflow.Proofs.Asking

/-!
Rules for statements. `Stepwise c calls Q` says that a property of processes in a frame is kept by each way in
which statements are put together. Then, by induction on statements, it holds of blocks.
-/

namespace Workflow

open Exec

/-- A property of processes in a frame, with a rule for each way in which statements are put together. -/
structure Stepwise (c : Context) (calls : Calls) (Q : {α : Type} → Exec α → Prop) : Prop where
  done : ∀ {α : Type} (a : α), Q (pure a)
  fail : ∀ {α : Type} (fault : RunFault), Q (fail fault : Exec α)
  next : ∀ {α β : Type} {x : Exec α} {k : α → Exec β}, Q x → (∀ a, Q (k a)) → Q (x >>= k)
  frame : Q get
  eval : ∀ t : Term, Q (eval t)
  assign : ∀ name v, Q (assign name v)
  setPath : ∀ name path v, Q (change fun b => b.setPath name path v)
  push : ∀ name v, Q (change fun b => b.push name v)
  guard : ∀ guard, Q (modify fun f => { f with guard := guard })
  forEach : ∀ (var : String) (iterable : Term) {body : Exec Control}, Q body → Q (forEach var iterable body)
  pause : Q (liftM Process.pause)
  report : ∀ {e : Event}, e.isClosing = false → Q (liftM (Process.emit e))
  stuck : ∀ {α : Type}, Q (ofAct (Act.stuck : Act α))
  ofExcept : ∀ {α : Type} (x : Except RunFault α), Q (ofAct (Act.ofExcept x))
  agent : ∀ name args bindings, Q (ofAct (calls.agent name args bindings))
  prompt : ∀ name args model bindings, Q (ofAct (calls.prompt name args model bindings))
  flow : ∀ name args, Q (ofAct (calls.flow name args))
  located : ∀ {α : Type} {x : Exec α} (i : Instr), Q x → Q (located i (c.site i.line) x)
  branches : ∀ {α : Type} {ps : List (Process Outcome)} {k : Except RunError (List Answer) → Exec α},
    (∀ p ∈ ps, ∃ name args bindings, p = (calls.agent name args bindings).run) →
    (∀ answers, Q (k (.ok answers))) → (∀ e, k (.error e) = throw e) →
    Q ((liftM (Process.branches ps) : Exec _) >>= k)

namespace Stepwise

variable {c : Context} {calls : Calls} {Q : {α : Type} → Exec α → Prop}

section Statements

variable (h : Stepwise c calls Q)

include h

lemma evalAll (ts : List Term) : Q (evalAll ts) := by
  induction ts with
  | nil => exact h.done _
  | cons t rest ih => exact h.next (h.eval t) fun _ => h.next ih fun _ => h.done _

lemma assignTo (target : Option String) (v : Json) : Q (assignTo target v) := by
  cases target with
  | none => exact h.done _
  | some name => exact h.assign name v

lemma visible : Q visible := h.next h.frame fun _ => h.done _

lemma turns (bounded : Bool) (hbody : Q body) (n : Nat) : Q (turns bounded body n) := by
  induction n with
  | zero =>
    unfold Exec.turns
    split
    · exact h.done _
    · exact h.stuck
  | succ n ih =>
    refine h.next h.pause fun _ => h.next hbody fun control => ?_
    cases control with
    | ret v => exact h.done _
    | _ => exact ih

lemma settle (source : String) (target : Option String) (onEscalate : Option (EscalateAction Term))
    (answer : Answer) : Q (settle source target onEscalate answer) := by
  unfold Exec.settle
  split
  · exact h.next (h.eval _) fun _ => h.done _
  · exact h.done _
  · exact h.fail _
  · exact h.next (h.assignTo target _) fun _ => h.done _

lemma branchArgs (branches : List ParallelCall) : Q (branches.mapM fun b => Exec.evalAll b.args) := by
  induction branches with
  | nil => exact h.done _
  | cons b rest ih =>
    rw [List.mapM_cons]
    exact h.next (h.evalAll b.args) fun _ => h.next ih fun _ => h.done _

lemma branchTargets (results : List (ParallelCall × Answer)) :
    Q (results.forM fun (b, answer) => Exec.assignTo b.target answer.value) := by
  induction results with
  | nil => exact h.done _
  | cons result rest ih => exact h.next (h.assignTo result.1.target result.2.value) fun _ => ih

lemma guardAction (kind : GuardKind) (name : String) (message : Option String) :
    Q (c.guardAction kind name message) := by
  refine h.next h.frame fun frame => ?_
  split
  · exact h.fail _
  · cases kind with
    | mask =>
      refine h.next (h.ofExcept _) fun text => h.next (h.guard _) fun _ => ?_
      exact h.next (h.assign _ _) fun _ => h.done _
    | block =>
      refine h.next (h.ofExcept _) fun found => ?_
      cases found with
      | true => exact h.next (h.fail _) fun _ => h.done _
      | false => exact h.done _
    | warn =>
      refine h.next (h.ofExcept _) fun found => ?_
      cases found with
      | true => exact h.next (h.report rfl) fun _ => h.done _
      | false => exact h.done _
    | retry =>
      refine h.next (h.ofExcept _) fun found => ?_
      cases found with
      | true => exact h.next (h.guard _) fun _ => h.done _
      | false => exact h.done _

lemma andThen {first rest : Exec Control} (hfirst : Q first) (hrest : Q rest) : Q (do
      match ← first with
      | .next => rest
      | control => pure control) := by
  refine h.next hfirst fun control => ?_
  cases control with
  | next => exact hrest
  | _ => exact h.done _

lemma parallel (branches : List ParallelCall) : Q (Exec.parallel calls branches) := by
  refine h.next h.visible fun bindings => h.next (h.branchArgs branches) fun args => ?_
  refine h.branches (fun p hp => ?_) (fun answers => h.branchTargets _) fun _ => rfl
  obtain ⟨⟨b, args⟩, -, rfl⟩ := List.mem_map.1 hp
  exact ⟨b.agent, args, bindings, rfl⟩

end Statements

mutual

theorem execInstr (h : Stepwise c calls Q) (bound : Nat) : ∀ i : Instr, Q (c.execInstr calls bound i)
  | .mk line op body => by
    have hbody := execBlock h bound body
    unfold Context.execInstr
    cases op with
    | branch condition =>
      refine h.next (h.eval condition) fun v => ?_
      split
      · exact hbody
      · exact h.done _
    | loop max => exact h.turns _ hbody _
    | forEach var iterable => exact h.forEach var iterable hbody
    | select subject => exact h.next (h.eval subject) fun v => execArms h bound v body
    | assign target value => exact h.next (h.eval value) fun v => h.next (h.assign _ _) fun _ => h.done _
    | setPath target path value =>
      exact h.next (h.eval value) fun v => h.next (h.setPath _ _ _) fun _ => h.done _
    | runAgent target name args onEscalate =>
      refine h.next (h.evalAll args) fun _ => h.next h.visible fun _ => ?_
      exact h.next (h.agent _ _ _) fun answer => h.settle name target onEscalate answer
    | callPrompt target name args model onEscalate =>
      refine h.next (h.evalAll args) fun _ => h.next h.visible fun _ => ?_
      exact h.next (h.prompt _ _ _ _) fun answer => h.settle name target onEscalate answer
    | runFlow target name args =>
      refine h.next (h.evalAll args) fun _ => h.next (h.flow _ _) fun v => ?_
      exact h.next (h.assignTo target v) fun _ => h.done _
    | parallel branches => exact h.next (h.parallel branches) fun _ => h.done _
    | ret value => exact h.next (h.eval value) fun _ => h.done _
    | abort message =>
      cases message with
      | none => exact h.fail _
      | some message => exact h.next (h.eval message) fun _ => h.fail _
    | push value target => exact h.next (h.eval value) fun v => h.next (h.push _ _) fun _ => h.done _
    | log message => exact h.next (h.eval message) fun _ => h.next (h.report rfl) fun _ => h.done _
    | guard kind name message => exact h.guardAction kind name message
    | onFailure => exact h.fail _
    | _ => exact h.done _

theorem execBlock (h : Stepwise c calls Q) (bound : Nat) : ∀ is : List Instr, Q (c.execBlock calls bound is)
  | [] => by
    rw [Context.execBlock]
    exact h.done _
  | [i] => by
    rw [Context.execBlock_step]
    · exact h.andThen (h.located _ (execInstr h bound i)) (execBlock h bound [])
    · exact nofun
  | .mk line op body :: .mk line' op' other :: rest => by
    by_cases hpair : (∃ condition, op = .branch condition) ∧ op' = .otherwise
    · obtain ⟨⟨condition, rfl⟩, rfl⟩ := hpair
      rw [Context.execBlock]
      refine h.andThen (h.located _ ?_) (execBlock h bound rest)
      refine h.next (h.eval condition) fun v => ?_
      split
      · exact execBlock h bound body
      · exact execBlock h bound other
    · rw [Context.execBlock_step fun condition _ _ _ hbranch hother => hpair ?_]
      · exact h.andThen (h.located _ (execInstr h bound (.mk line op body)))
          (execBlock h bound (.mk line' op' other :: rest))
      · cases hother
        exact ⟨⟨condition, hbranch⟩, rfl⟩

theorem execArms (h : Stepwise c calls Q) (bound : Nat) (v : Json) : ∀ is : List Instr, Q (c.execArms calls bound v is)
  | [] => by
    rw [Context.execArms]
    exact h.done _
  | .mk line op body :: rest => by
    have hbody := execBlock h bound body
    have hrest := execArms h bound v rest
    cases op with
    | arm pattern =>
      cases pattern with
      | none =>
        rw [Context.execArms]
        exact hbody
      | some pattern =>
        rw [Context.execArms]
        split
        · exact hbody
        · exact hrest
    | _ =>
      rw [Context.execArms]
      · exact hrest
      · nofun
      · nofun

end

end Stepwise

end Workflow
