import Workflow.Proofs.Keeping
import Workflow.Proofs.Linked

/-!
Where blocks stop. A block that does not come to its end has gone through some of its statements and stops in
the next one. The variables that are in scope at that statement have values where the block stops.
-/

namespace Workflow

open List

/-- A statement of a block: an instruction, or a branch and its alternative. -/
inductive Instr.Statement : List Instr → Prop where
  | one (i : Instr) : Statement [i]
  | branchElse (line : Nat) (condition : Term) (body : List Instr) (elseLine : Nat) (other : List Instr) :
      Statement [.mk line (.branch condition) body, .mk elseLine .otherwise other]

section

variable {defs : Definitions} {guarded : Bool}

lemma Approved.statements {after : Scope} {motive : Scope → List Instr → Prop} (nil : motive after []) (cons : ∀
      {scope mid step rest}, Instr.Statement step → Approved defs guarded scope step mid → Approved defs guarded mid
      rest after → motive mid rest → motive scope (step ++ rest)) :
    ∀ {scope is}, Approved defs guarded scope is after → motive scope is
  | _, _, .nil => nil
  | _, _, .step approved next => cons (.one _) (.step approved .nil) next (next.statements nil cons)
  | _, _, .loop inside next => cons (.one _) (.loop inside .nil) next (next.statements nil cons)
  | _, _, .forEach reads inside next =>
    cons (.one _) (.forEach reads inside .nil) next (next.statements nil cons)
  | _, _, .branch reads inside next =>
    cons (.one _) (.branch reads inside .nil) next (next.statements nil cons)
  | _, _, .branchElse reads inside insideElse next =>
    cons (.branchElse _ _ _ _ _) (.branchElse reads inside insideElse .nil) next (next.statements nil cons)
  | _, _, .select reads inside next =>
    cons (.one _) (.select reads inside .nil) next (next.statements nil cons)

lemma Approved.subset : ∀ {scope after is}, Approved defs guarded scope is after → ∀ name ∈ scope, name ∈ after
  | _, _, _, .nil, _, h => h
  | _, _, _, .step _ next, name, h | _, _, _, .branchElse _ _ _ next, name, h =>
    next.subset name (Scope.mem_union.2 (.inl h))
  | _, _, _, .loop _ next, name, h | _, _, _, .forEach _ _ next, name, h | _, _, _, .branch _ _ next, name, h
  | _, _, _, .select _ _ next, name, h => next.subset name h

end

lemma Exec.andThen_next (x : Exec Control) : (do
    match ← x with
    | .next => pure .next
    | control => pure control) = x :=
  calc
    _ = x >>= pure := bind_congr fun control => by cases control <;> rfl
    _ = x := bind_pure x

namespace Context

variable {c : Context} {calls : Calls} {bound : Nat} {defs : Definitions} {guarded : Bool}
  {L : RunFault → Prop} {globals : Table Json} {scope mid after reached : Scope}
  {block done step : List Instr} {frame frame' : Frame} {r : Except RunError Control}

lemma execBlock_statement (hstep : Instr.Statement step)
    (hrest : ∀ line body others, rest ≠ .mk line .otherwise body :: others) :
    c.execBlock calls bound (step ++ rest) = (do
      match ← c.execBlock calls bound step with
      | .next => c.execBlock calls bound rest
      | control => pure control) := by
  cases hstep with
  | one i =>
    have halone : c.execBlock calls bound [i] = Exec.located i (c.site i.line) (c.execInstr calls bound i) := by
      rw [execBlock_cons, execBlock]
      · exact Exec.andThen_next _
      · exact fun _ _ _ => (cons_ne_nil _ _).symm
    rw [singleton_append, halone]
    exact execBlock_cons hrest
  | branchElse line condition body elseLine other =>
    rw [cons_append, singleton_append, execBlock, execBlock, execBlock]
    exact congrArg (· >>= _) (Exec.andThen_next _).symm

lemma execBlock_append (hfront : Approved defs guarded scope front mid)
    (hback : ∀ line body others, back ≠ .mk line .otherwise body :: others) :
    c.execBlock calls bound (front ++ back) = (do
      match ← c.execBlock calls bound front with
      | .next => c.execBlock calls bound back
      | control => pure control) := by
  refine Approved.statements (motive := fun _ front => c.execBlock calls bound (front ++ back) = (do
    match ← c.execBlock calls bound front with
    | .next => c.execBlock calls bound back
    | control => pure control)) ?_ ?_ hfront
  · rw [nil_append, execBlock, pure_bind]
  · intro scope mid step rest hstep hmid hrest ih
    have hnext : ∀ line body others, rest ++ back ≠ .mk line .otherwise body :: others := by
      cases rest with
      | nil => exact hback
      | cons i rest =>
        intro line body others heq
        exact ne_otherwise_of_approved hrest line body rest (by rw [(List.cons.inj heq).1])
    rw [append_assoc, execBlock_statement hstep hnext, ih,
      execBlock_statement hstep (ne_otherwise_of_approved hrest), bind_assoc]
    refine bind_congr fun control => ?_
    cases control <;> rfl

/-- A block goes through some statements and comes to its result in the next one. -/
structure StopsIn (c : Context) (calls : Calls) (bound : Nat) (block : List Instr) (frame : Frame)
    (r : Except RunError Control) (frame' : Frame) (done step : List Instr) : Prop where
  split : ∃ rest, block = done ++ step ++ rest
  statement : Instr.Statement step
  run : ∃ mid, ((c.execBlock calls bound done).run.run frame).Yields (.ok .next, mid) ∧
    ((c.execBlock calls bound step).run.run mid).Yields (r, frame')

lemma stops_of_approved (h : Approved defs guarded scope block after) :
    ∀ {frame}, ((c.execBlock calls bound block).run.run frame).Yields (r, frame') →
    r = .ok .next ∨ ∃ done step reached, Approved defs guarded scope done reached ∧
      c.StopsIn calls bound block frame r frame' done step := by
  refine Approved.statements (motive := fun scope block => ∀ {frame},
    ((c.execBlock calls bound block).run.run frame).Yields (r, frame') → r = .ok .next ∨
      ∃ done step reached, Approved defs guarded scope done reached ∧
        c.StopsIn calls bound block frame r frame' done step) ?_ ?_ h
  · intro frame hr
    rw [execBlock] at hr
    cases hr
    exact .inl rfl
  · intro scope mid step rest hstep hmid hrest ih frame hr
    rw [execBlock_statement hstep (ne_otherwise_of_approved hrest)] at hr
    obtain ⟨⟨r₁, frame₁⟩, h₁, h₂⟩ := Process.Yields.of_bind hr
    have hhere : ∀ {r₁}, ((c.execBlock calls bound step).run.run frame).Yields (r₁, frame₁) →
        c.StopsIn calls bound (step ++ rest) frame r₁ frame₁ [] step := by
      intro r₁ h₁
      refine ⟨⟨rest, rfl⟩, hstep, frame, ?_, h₁⟩
      rw [execBlock]
      exact .done _
    rcases r₁ with e | control
    · cases h₂
      exact .inr ⟨[], step, scope, .nil, hhere h₁⟩
    · cases control with
      | next =>
        refine (ih h₂).imp_right ?_
        rintro ⟨done, last, reached, hreached, ⟨behind, hbehind⟩, hlast, mid', hdone, hstop⟩
        refine ⟨step ++ done, last, reached, hmid.append hreached, ⟨behind, ?_⟩, hlast, mid', ?_, hstop⟩
        · rw [hbehind, append_assoc, append_assoc, append_assoc]
        · rw [execBlock_statement hstep (ne_otherwise_of_approved hreached)]
          exact h₁.bind hdone
      | «continue» | ret v =>
        cases h₂
        exact .inr ⟨[], step, scope, .nil, hhere h₁⟩

lemma tolerates_all (c : Context) (calls : Calls) (defs : Definitions) : Tolerates (fun _ => True) c calls defs where
  ordinary _ _ _ := trivial
  agent _ _ _ _ _ _ := trivial
  prompt _ _ _ _ _ _ _ _ := trivial
  flow _ _ _ _ _ := trivial
  guardrail _ _ := .inr trivial

lemma covers_of_next (h : Approved defs guarded scope block after) (hframe : frame.Covers L guarded globals scope)
    (hr : ((c.execBlock calls bound block).run.run frame).Yields (.ok .next, frame')) :
    frame'.Covers L guarded globals after := by
  have hend : Exec.Ends L guarded globals scope after .next frame' :=
    execBlock_ends (c.tolerates_all calls defs) (fun _ _ => trivial) bound h frame hframe _ _ hr
  exact hend.2 rfl

lemma StopsIn.covers (h : c.StopsIn calls bound block frame r frame' done step)
    (hreached : Approved defs guarded scope done reached)
    (hframe : frame.Covers L guarded globals scope) : frame'.Covers L false globals reached := by
  obtain ⟨mid, hdone, hstop⟩ := h.run
  have hmid := covers_of_next hreached hframe hdone
  exact (execBlock_keeps bound step).of_yields hmid.unguarded hstop

end Context

end Workflow
