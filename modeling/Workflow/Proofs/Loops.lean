import Workflow.Proofs.Branching
import Workflow.Proofs.Courses
import Workflow.Proofs.Keeping

/-!
Loops over lists. The body runs once for each item of the list, in order, up to the first turn that returns or
fails: `Exec.Turns` relates these turns to what they note down and to the frame that the last one leaves. Behind
the loop its variable reads as before it.
-/

namespace Workflow

open List Bindings

/-! ### Frames -/

namespace Frame

def without (f : Frame) (var : String) : Frame := { f with bindings := f.bindings.erase var }

def holding (f : Frame) (var : String) (v : Json) : Frame := { f with bindings := f.bindings.set var v }

/-- A variable gets back the local value that it had, or has none again. -/
def regaining (f : Frame) (var : String) : Option Json → Frame
  | some v => (f.without var).holding var v
  | none => f.without var

/-- After a loop its variable reads as before it, and all else is as in the frame `inner` that the last turn
leaves. -/
structure Regains (var : String) (before inner after : Frame) : Prop where
  own : after.bindings.get? var = before.bindings.get? var
  others : ∀ name, name ≠ var → after.bindings.get? name = inner.bindings.get? name
  guard : after.guard = inner.guard

lemma regains (frame : Frame) {inner : Frame} (h : inner.bindings.globals = frame.bindings.globals) (var : String) :
    Regains var frame inner (inner.regaining var (frame.bindings.locals.get? var)) := by
  have hothers : ∀ name, name ≠ var → (inner.without var).bindings.get? name = inner.bindings.get? name := by
    intro name hne
    simp [without, get?, erase, Table.get?_erase_of_ne _ (Ne.symm hne)]
  cases hlocal : frame.bindings.locals.get? var with
  | none =>
    refine ⟨?_, hothers, rfl⟩
    simp [regaining, without, get?, erase, Table.get?_erase, hlocal, h]
  | some v =>
    refine ⟨?_, fun name hne => ?_, rfl⟩
    · rw [regaining, holding, get?_set, if_pos rfl, get?, hlocal]
    · rw [regaining, holding, get?_set, if_neg (Ne.symm hne), hothers name hne]

end Frame

/-! ### Turns -/

namespace Exec

/-- Turns of a loop for some items, in order: the notes of all turns, what the last one comes to and the frame
that it leaves. -/
inductive Turns (var : String) (body : Exec Control) :
    Frame → List Json → List Note → Except RunError Control → Frame → Prop where
  | done {f} : Turns var body f [] [] (.ok .next) f
  | next {f v items told more control mid r after}
      (turn : (body.run.run (f.holding var v)).Course told (.ok control, mid)) (goesOn : ∀ w, control ≠ .ret w)
      (others : Turns var body mid items more r after) : Turns var body f (v :: items) (told ++ more) r after
  | returns {f v items told w after} (turn : (body.run.run (f.holding var v)).Course told (.ok (.ret w), after)) :
      Turns var body f (v :: items) told (.ok (.ret w)) after
  | fails {f v items told e after} (turn : (body.run.run (f.holding var v)).Course told (.error e, after)) :
      Turns var body f (v :: items) told (.error e) after

variable {var : String} {body : Exec Control} {f after : Frame} {notes : List Note}
  {r : Except RunError Control} {items : List Json}

/-- A turn that returns is the last one. -/
def onward (others : Exec Control) : Control → Exec Control
  | .ret v => pure (.ret v)
  | _ => others

lemma course_eachItem : ((eachItem var body items).run.run f).Course notes (r, after) ↔
    Turns var body f items notes r after := by
  induction items generalizing f notes with
  | nil =>
    constructor
    · intro h
      obtain ⟨rfl, heq⟩ := Process.course_done.1 h
      cases heq
      exact .done
    · rintro ⟨⟩
      exact .done _
  | cons v rest ih =>
    have hrun : (eachItem var body (v :: rest)).run.run f = .tell [] fun _ =>
        (body >>= onward (eachItem var body rest)).run.run (f.holding var v) := rfl
    rw [hrun]
    constructor
    · rintro (_ | h)
      rw [nil_append]
      rcases course_bind h with ⟨told, more, control, mid, rfl, hturn, hrest⟩ | ⟨e, rfl, hturn⟩
      · cases control with
        | ret w =>
          obtain ⟨rfl, heq⟩ := Process.course_done.1 hrest
          cases heq
          exact (append_nil told).symm ▸ .returns hturn
        | _ => exact .next hturn (by simp) (ih.1 hrest)
      · exact .fails hturn
    · intro h
      rw [← nil_append notes]
      refine .tell ?_
      cases h with
      | @next _ _ _ _ _ control _ _ _ turn goesOn others =>
        cases control with
        | ret w => exact absurd rfl (goesOn w)
        | _ => exact course_bind_ok turn (ih.2 others)
      | returns turn => exact append_nil notes ▸ course_bind_ok turn (.done _)
      | fails turn => exact course_bind_error turn

lemma Turns.globals (hbody : ∀ {f r after}, (body.run.run f).Yields (r, after) →
    after.bindings.globals = f.bindings.globals) (h : Turns var body f items notes r after) :
    after.bindings.globals = f.bindings.globals := by
  induction h with
  | done => rfl
  | next turn _ _ ih =>
    have hturn := hbody turn.yields
    exact ih.trans hturn
  | returns turn | fails turn =>
    have hturn := hbody turn.yields
    exact hturn

lemma run_lastly (x : Exec Control) (g : Bindings → Bindings) (f : Frame) :
    (lastly x (change fun b => (g b, .ok ()))).run.run f =
      (x.run.run f).bind fun y => .done (y.1, { y.2 with bindings := g y.2.bindings }) := by
  refine (Process.bind_assoc (x.run.run f) _ _).trans (congrArg _ (funext fun (r, after) => ?_))
  cases r <;> rfl

lemma run_forEach {iterable : Term} (h : iterable.eval f.bindings = .ok (.arr items)) :
    (forEach var iterable body).run.run f = ((eachItem var body items).run.run (f.without var)).bind fun y =>
      .done (y.1, y.2.regaining var (f.bindings.locals.get? var)) := by
  have heval : (eval iterable).run.run f = .done (.ok (.arr items), f) := by
    rw [run_eval, h]
    rfl
  have hget : (get : Exec Frame).run.run f = .done (.ok f, f) := rfl
  have hhide : (change fun b => (b.erase var, .ok ())).run.run f = .done (.ok (), f.without var) := rfl
  rw [forEach, run_bind_ok heval, run_bind_ok hget, run_bind_ok hhide, run_lastly]
  refine congrArg _ (funext fun (r, after) => ?_)
  cases f.bindings.locals.get? var <;> rfl

lemma course_forEach {iterable : Term} (h : iterable.eval f.bindings = .ok (.arr items)) :
    ((forEach var iterable body).run.run f).Course notes (r, after) ↔ ∃ inner,
      Turns var body (f.without var) items notes r inner ∧
        after = inner.regaining var (f.bindings.locals.get? var) := by
  rw [run_forEach h]
  constructor
  · intro h
    obtain ⟨told, rest, ⟨r, inner⟩, rfl, hturns, hdone⟩ := Process.Course.of_bind h
    obtain ⟨rfl, heq⟩ := Process.course_done.1 hdone
    cases heq
    exact ⟨inner, (append_nil told).symm ▸ course_eachItem.1 hturns, rfl⟩
  · rintro ⟨inner, hturns, rfl⟩
    rw [← append_nil notes]
    exact (course_eachItem.2 hturns).bind (.done _)

end Exec

namespace Context

open Exec (Turns)

lemma execBlock_globals {c : Context} {f after : Frame}
    (h : ((c.execBlock calls bound is).run.run f).Yields (r, after)) :
    after.bindings.globals = f.bindings.globals := by
  have hkeeps := @execBlock_keeps c calls (fun _ => False) f.bindings.globals [] bound is
  exact (hkeeps.of_yields ⟨nofun, rfl, nofun⟩ h).globals

/-- The body of a loop over a list runs once for each item of the list as it is at the start, in order, up to
the first turn that returns or fails. However the loop ends, its variable reads as before, and all else is as
the last turn has left it. -/
theorem loop_restores_variable (c : Context) (calls : Calls) (bound line : Nat) (var : String) (iterable : Term)
    (body : List Instr) (frame : Frame) :
    (∀ items, iterable.eval frame.bindings = .ok (.arr items) → (∀ {notes r after},
        ((c.execInstr calls bound (.mk line (.forEach var iterable) body)).run.run frame).Course notes (r, after) →
        ∃ inner, Turns var (c.execBlock calls bound body) (frame.without var) items notes r inner ∧
          Frame.Regains var frame inner after) ∧
      ∀ {notes r inner}, Turns var (c.execBlock calls bound body) (frame.without var) items notes r inner → ∃ after,
          ((c.execInstr calls bound (.mk line (.forEach var iterable) body)).run.run frame).Course notes (r, after)) ∧
    ((∀ items, iterable.eval frame.bindings ≠ .ok (.arr items)) → ∃ v,
      (c.execInstr calls bound (.mk line (.forEach var iterable) body)).run.run frame =
        .done (.error (Exec.valueError v), frame)) := by
  rw [execInstr]
  refine ⟨fun items hitems => ?_, fun hnone => ?_⟩
  · constructor
    · intro notes r after h
      obtain ⟨inner, hturns, rfl⟩ := (Exec.course_forEach hitems).1 h
      have hglobals := hturns.globals execBlock_globals
      exact ⟨inner, hturns, frame.regains hglobals var⟩
    · exact fun h => ⟨_, (Exec.course_forEach hitems).2 ⟨_, h, rfl⟩⟩
  · have heval := Exec.run_eval iterable frame
    rw [Exec.forEach]
    cases hvalue : iterable.eval frame.bindings with
    | error v =>
      rw [hvalue] at heval
      exact ⟨v, Exec.run_bind_error heval⟩
    | ok v =>
      rw [hvalue] at heval
      rw [Exec.run_bind_ok heval]
      cases v with
      | arr items => exact absurd hvalue (hnone items)
      | _ => exact ⟨_, rfl⟩

end Context

end Workflow
