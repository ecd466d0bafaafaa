import Workflow.Proofs.Stepwise

/-!
Variables keep their values. No statement takes away the value of a variable, whether it succeeds or fails: a
loop over a list hides one variable and gives it back at its end.
-/

namespace Workflow

open Exec

namespace Frame.Covers

variable {L : RunFault → Prop} {guarded : Bool} {globals : Table Json} {scope : Scope} {f : Frame} {hidden : String}

lemma unguarded (h : f.Covers L guarded globals scope) : f.Covers L false globals scope :=
  ⟨h.bound, h.globals, nofun⟩

lemma hide (h : f.Covers L guarded globals scope) (hidden : String) :
    f.Covers L guarded globals (List.filter (· ≠ hidden) scope) :=
  h.mono fun _ hname => (List.mem_filter.1 hname).1

lemma unhide (h : f.Covers L guarded globals (List.filter (· ≠ hidden) scope)) (v : Json) :
    Covers L guarded globals scope { f with bindings := f.bindings.set hidden v } := by
  refine (h.set hidden v).mono fun name hname => Scope.mem_insert.2 ?_
  by_cases heq : name = hidden
  · exact .inl heq
  · exact .inr (List.mem_filter.2 ⟨hname, decide_eq_true heq⟩)

end Frame.Covers

/-! ### Processes that keep something -/

namespace Exec

variable {α β : Type} {I : Frame → Prop}

/-- What holds of the frame where a process starts holds wherever it ends. -/
def Keeps (I : Frame → Prop) (x : Exec α) : Prop := Triple I x (fun _ => I) fun _ => I

lemma Keeps.of_yields (h : Keeps I x) (hf : I f) (hr : (x.run.run f).Yields (r, f')) : I f' := by
  have hend := h f hf r f' hr
  cases r with
  | ok a => exact hend
  | error e => exact hend

lemma keeps_pure (a : α) : Keeps I (pure a) := triple_pure fun _ => id

lemma keeps_fail (fault : RunFault) : Keeps I (fail fault : Exec α) := triple_throw fun _ => id

lemma Keeps.bind {x : Exec α} {k : α → Exec β} (hx : Keeps I x) (hk : ∀ a, Keeps I (k a)) :
    Keeps I (x >>= k) := Triple.bind hx hk

lemma keeps_lift (p : Process α) : Keeps I (liftM p) := triple_lift p

lemma keeps_ofAct (x : Act α) : Keeps I (ofAct x) :=
  triple_ofAct (E := fun _ => True) (fun _ _ => trivial) fun _ _ _ => id

lemma keeps_change {g : Bindings → Bindings × Except ValueError Unit}
    (h : ∀ f, I f → I { f with bindings := (g f.bindings).1 }) : Keeps I (change g) :=
  triple_change h fun f _ hf _ => h f hf

lemma keeps_eval (t : Term) : Keeps I (eval t) := by
  refine triple_get fun f hf => ?_
  cases t.eval f.bindings with
  | ok v => exact triple_pure fun _ heq => heq ▸ hf
  | error e => exact triple_fail fun _ heq => heq ▸ hf

end Exec

/-! ### Statements that keep a scope covered -/

namespace Exec

variable {L : RunFault → Prop} {globals : Table Json} {scope : Scope}

lemma keeps_eachItem {hidden : String} (hbody : Keeps (Frame.Covers L false globals scope) body) : ∀ items,
    Keeps (Frame.Covers L false globals (List.filter (· ≠ hidden) scope)) (eachItem hidden body items)
  | [] => keeps_pure _
  | v :: rest => by
    refine (keeps_lift _).bind fun _ => ?_
    have hassign : Triple (Frame.Covers L false globals (List.filter (· ≠ hidden) scope))
        (assign hidden v) (fun _ => Frame.Covers L false globals scope)
        fun _ => Frame.Covers L false globals (List.filter (· ≠ hidden) scope) :=
      triple_change (fun f hf => hf.unhide v) nofun
    have hturn := hbody.weaken (fun _ => id) (fun _ _ => id) fun _ f hf => hf.hide hidden
    refine hassign.bind fun _ => Triple.bind hturn fun control => ?_
    refine Triple.weaken ?_ (fun f hf => Frame.Covers.hide hf hidden) (fun _ _ => id) fun _ _ => id
    cases control with
    | ret v => exact keeps_pure _
    | _ => exact keeps_eachItem hbody rest

lemma keeps_forEach (hidden : String) (iterable : Term) {body : Exec Control}
    (hbody : Keeps (Frame.Covers L false globals scope) body) :
    Keeps (Frame.Covers L false globals scope) (forEach hidden iterable body) := by
  refine (keeps_eval iterable).bind fun v => ?_
  cases v with
  | arr items =>
    refine triple_get fun f hf => ?_
    have hhide : Triple (· = f) (change fun b => (b.erase hidden, .ok ()))
        (fun _ => Frame.Covers L false globals (List.filter (· ≠ hidden) scope))
        fun _ => Frame.Covers L false globals scope :=
      triple_change (fun f' heq => heq ▸ hf.erase hidden) nofun
    refine hhide.bind fun _ => (keeps_eachItem hbody items).lastly (fun fault => ?_) fun control => ?_
    · exact triple_change (fun f' hf' => hf.restore hf') nofun
    · exact triple_change (fun f' hf' => hf.restore hf') nofun
  | _ => exact keeps_fail _

end Exec

lemma Context.keeps_stepwise (c : Context) (calls : Calls) {L : RunFault → Prop} {globals : Table Json}
    {scope : Scope} : Stepwise c calls (Exec.Keeps (Frame.Covers L false globals scope)) where
  done := keeps_pure
  fail := keeps_fail
  next := Exec.Keeps.bind
  frame := fun f hf r f' hr => by
    cases hr
    exact hf
  eval := keeps_eval
  assign name v := keeps_change fun _ hf => hf.set' name v
  setPath name path v := keeps_change fun f hf => by
    rcases f.bindings.setPath_fst name path v with heq | ⟨w, heq⟩
    · rwa [heq]
    · rw [heq]
      exact hf.set' name w
  push name v := keeps_change fun f hf => by
    obtain ⟨w, heq⟩ := f.bindings.push_fst name v
    rw [heq]
    exact hf.set' name w
  guard _ := triple_modify fun f hf => ⟨hf.bound, hf.globals, nofun⟩
  forEach := keeps_forEach
  pause := keeps_lift _
  report _ := keeps_lift _
  stuck := keeps_ofAct _
  ofExcept _ := keeps_ofAct _
  agent _ _ _ := keeps_ofAct _
  prompt _ _ _ _ := keeps_ofAct _
  flow _ _ := keeps_ofAct _
  located _ hx := Exec.Triple.located hx _
  branches _ hk herror := (keeps_lift _).bind fun r => by
    cases r with
    | ok answers => exact hk answers
    | error e =>
      rw [herror]
      exact triple_throw fun _ => id

lemma Context.execBlock_keeps {c : Context} {calls : Calls} {L : RunFault → Prop} {globals : Table Json}
    {scope : Scope} (bound : Nat) (is : List Instr) : Exec.Keeps (Frame.Covers L false globals scope) (c.execBlock calls bound is) :=
  (c.keeps_stepwise calls).execBlock bound is

end Workflow
