import Mathlib.Tactic.Lemma
import Workflow.Run.Block

/-!
Courses of events. `Process.Course` relates a process to each result and to what it notes down on the way. The
body of a time limit that is over, and the branches beside one that fails, are no part of a course.
-/

namespace Workflow

open List Process

namespace Process

/-- A course of events leads a process to a result. It has what the process notes down on the way. -/
inductive Course : {α : Type} → Process α → List Note → α → Prop where
  | done {α : Type} (a : α) : Course (.done a) [] a
  | tell {α : Type} {told rest next} {a : α} (after : Course (next ()) rest a) :
      Course (.tell told next) (told ++ rest) a
  | ask {α : Type} {request next rest} {a : α} (reply : Except ModelError Reply)
      (after : Course (next reply) rest a) : Course (.ask request next) rest a
  | sleep {α : Type} {time next rest} {a : α} (after : Course (next ()) rest a) : Course (.sleep time next) rest a
  | inTime {α : Type} {limit body next told rest} {a : α} {o} (inside : Course body told o)
      (after : Course (next (some o)) rest a) : Course (.within limit body next) (told ++ rest) a
  | late {α : Type} {limit body next rest} {a : α} (after : Course (next none) rest a) :
      Course (.within limit body next) rest a
  | joined {α : Type} {count branch next rest} {a : α} (answers : Fin count → Answer)
      (told : Fin count → List Note) (inside : ∀ i, Course (branch i) (told i) (.ok (answers i)))
      (after : Course (next (.ok (List.ofFn answers))) rest a) :
      Course (.parallel count branch next) ((List.ofFn told).flatten ++ rest) a
  | failed {α : Type} {count branch next told rest} {a : α} {e} (i : Fin count)
      (inside : Course (branch i) told (.error e))
      (after : Course (next (.error e)) rest a) : Course (.parallel count branch next) (told ++ rest) a

end Process

variable {notes told : List Note}

namespace Process

variable {α β : Type} {a : α} {b : β} {f : α → Process β} {p : Process α}

lemma course_done {b : α} : (done a).Course notes b ↔ notes = [] ∧ b = a := by
  constructor
  · intro h
    cases h
    exact ⟨rfl, rfl⟩
  · rintro ⟨rfl, rfl⟩
    exact .done b

lemma course_note {n : Note} {u : Unit} : (note n).Course notes u ↔ notes = [n] := by
  constructor
  · rintro (_ | ⟨⟨⟩⟩)
    rfl
  · rintro rfl
    exact .tell (.done ())

lemma Course.bind {rest : List Note} (hp : p.Course told a) (hf : (f a).Course rest b) :
    (p >>= f).Course (told ++ rest) b := by
  induction hp with
  | done a => exact hf
  | tell _ ih => exact append_assoc .. ▸ .tell (ih hf)
  | ask reply _ ih => exact .ask reply (ih hf)
  | sleep _ ih => exact .sleep (ih hf)
  | inTime inside _ _ ih => exact append_assoc .. ▸ .inTime inside (ih hf)
  | late _ ih => exact .late (ih hf)
  | joined answers told inside _ _ ih => exact append_assoc .. ▸ .joined answers told inside (ih hf)
  | failed i inside _ _ ih => exact append_assoc .. ▸ .failed i inside (ih hf)

/-- A course of a process and then another has a course of each. -/
def Course.Splits (p : Process α) (f : α → Process β) (notes : List Note) (b : β) : Prop :=
  ∃ told rest a, notes = told ++ rest ∧ p.Course told a ∧ (f a).Course rest b

lemma Course.Splits.behind {q : Process α} (first : List Note)
    (hfirst : ∀ {told a}, q.Course told a → p.Course (first ++ told) a) (h : Splits q f notes b) :
    Splits p f (first ++ notes) b := by
  obtain ⟨told, rest, a, rfl, ha, hb⟩ := h
  exact ⟨first ++ told, rest, a, (append_assoc ..).symm, hfirst ha, hb⟩

lemma Course.of_bind (h : (p >>= f).Course notes b) : Splits p f notes b := by
  induction p generalizing notes with
  | done a => exact ⟨[], notes, a, rfl, .done a, h⟩
  | stuck => cases h
  | tell first next ih =>
    rcases h with _ | after
    exact (ih () after).behind first .tell
  | ask request next ih =>
    rcases h with _ | _ | ⟨reply, after⟩
    exact (ih reply after).behind [] (.ask reply)
  | sleep time next ih =>
    rcases h with _ | _ | _ | after
    exact (ih () after).behind [] .sleep
  | within limit body next _ ih =>
    cases h with
    | inTime inside after => exact (ih _ after).behind _ (.inTime inside)
    | late after => exact (ih none after).behind [] .late
  | parallel count branch next _ ih =>
    cases h with
    | joined answers first inside after => exact (ih _ after).behind _ (.joined answers first inside)
    | failed i inside after => exact (ih _ after).behind _ (.failed i inside)

def Ends (N : Note → Prop) (p : Process α) (a : α) : Prop := ∃ notes, p.Course notes a ∧ ∀ n ∈ notes, N n

namespace Ends

variable {N : Note → Prop} {a : α} {count : Nat} {branch : Fin count → Process Outcome}
  {next : Except RunError (List Answer) → Process α}

lemma done (a : α) : (done a).Ends N a := ⟨[], .done a, nofun⟩

lemma behind {q : Process β} (hstep : ∀ {rest}, q.Course rest b → p.Course (told ++ rest) a) (kind : ∀ n ∈ told, N n)
    (after : q.Ends N b) : p.Ends N a := by
  obtain ⟨rest, hcourse, hrest⟩ := after
  exact ⟨told ++ rest, hstep hcourse, forall_mem_append.2 ⟨kind, hrest⟩⟩

lemma tell {next : Unit → Process α} (kind : ∀ n ∈ told, N n) (after : (next ()).Ends N a) :
    (tell told next).Ends N a := after.behind .tell kind

lemma inTime {body : Process Outcome} {next : Option Outcome → Process α} (inside : body.Ends N o)
    (after : (next (some o)).Ends N a) : (within limit body next).Ends N a := by
  obtain ⟨told, hinside, htold⟩ := inside
  exact after.behind (.inTime hinside) htold

lemma joined (answers : Fin count → Answer) (inside : ∀ i, (branch i).Ends N (.ok (answers i)))
    (after : (next (.ok (List.ofFn answers))).Ends N a) : (parallel count branch next).Ends N a := by
  obtain ⟨told, htold⟩ := Classical.axiomOfChoice inside
  refine after.behind (.joined answers told fun i => (htold i).1) fun n hn => ?_
  obtain ⟨_, hmem, hn⟩ := mem_flatten.1 hn
  obtain ⟨i, rfl⟩ := mem_ofFn.1 hmem
  exact (htold i).2 n hn

lemma failed (i : Fin count) (inside : (branch i).Ends N (.error e)) (after : (next (.error e)).Ends N a) :
    (parallel count branch next).Ends N a := by
  obtain ⟨told, hinside, htold⟩ := inside
  exact after.behind (.failed i hinside) htold

end Ends

end Process

/-! ### Processes that may fail -/

namespace Act

variable {α β : Type} {p : Process α} {r : Except RunError β} {k : α → Act β}

lemma course_lift {r : Except RunError α} (h : (liftM p : Act α).run.Course notes r) :
    ∃ a, r = .ok a ∧ p.Course notes a := by
  obtain ⟨told, rest, a, rfl, ha, hdone⟩ := Process.Course.of_bind (p := p) h
  obtain ⟨rfl, rfl⟩ := course_done.1 hdone
  exact ⟨a, rfl, (append_nil told).symm ▸ ha⟩

lemma course_bind {x : Act α} (h : (x >>= k).run.Course notes r) :
    (∃ told rest a, notes = told ++ rest ∧ x.run.Course told (.ok a) ∧ (k a).run.Course rest r) ∨
      ∃ e, r = .error e ∧ x.run.Course notes (.error e) := by
  obtain ⟨told, rest, r', rfl, hx, hk⟩ := Process.Course.of_bind (p := x.run) h
  cases r' with
  | ok a => exact .inl ⟨told, rest, a, rfl, hx, hk⟩
  | error e =>
    obtain ⟨rfl, rfl⟩ := course_done.1 hk
    exact .inr ⟨e, rfl, (append_nil told).symm ▸ hx⟩

lemma run_lift_bind (p : Process α) (k : α → Act β) :
    ((liftM p : Act α) >>= k).run = p.bind fun a => (k a).run := Process.bind_assoc p _ _

lemma course_lift_bind : ((liftM p : Act α) >>= k).run.Course notes r ↔
      ∃ told rest a, notes = told ++ rest ∧ p.Course told a ∧ (k a).run.Course rest r := by
  rw [run_lift_bind]
  constructor
  · exact Process.Course.of_bind
  · rintro ⟨told, rest, a, rfl, hp, hk⟩
    exact hp.bind hk

lemma course_note {n : Note} {k : Unit → Act β} : ((liftM (note n) : Act Unit) >>= k).run.Course notes r ↔
      ∃ rest, notes = n :: rest ∧ (k ()).run.Course rest r := by
  constructor
  · rintro (_ | after)
    exact ⟨_, rfl, after⟩
  · rintro ⟨rest, rfl, after⟩
    exact .tell after

end Act

/-! ### Processes in a frame -/

namespace Exec

variable {α β : Type} {frame frame' : Frame} {r : Except RunError α} {x : Exec α} {k : α → Exec β}

lemma course_lift {p : Process α} (h : ((liftM p : Exec α).run.run frame).Course notes (r, frame')) :
    ∃ a, r = .ok a ∧ frame' = frame ∧ p.Course notes a := by
  obtain ⟨told, rest, x, rfl, hx, hdone⟩ := Process.Course.of_bind (p := p >>= fun a => .done (a, frame)) h
  obtain ⟨told, more, a, rfl, ha, hx⟩ := Process.Course.of_bind hx
  obtain ⟨rfl, rfl⟩ := course_done.1 hx
  obtain ⟨rfl, heq⟩ := course_done.1 hdone
  cases heq
  refine ⟨a, rfl, rfl, ?_⟩
  rwa [append_nil, append_nil]

lemma course_ofAct {x : Act α} (h : ((ofAct x).run.run frame).Course notes (r, frame')) : x.run.Course notes r := by
  obtain ⟨told, rest, r', rfl, hx, hdone⟩ := Process.Course.of_bind (p := x.run) h
  obtain ⟨rfl, heq⟩ := course_done.1 hdone
  cases heq
  exact (append_nil told).symm ▸ hx

lemma course_bind {r : Except RunError β} (h : ((x >>= k).run.run frame).Course notes (r, frame')) :
    (∃ told rest a mid, notes = told ++ rest ∧ (x.run.run frame).Course told (.ok a, mid) ∧
        ((k a).run.run mid).Course rest (r, frame')) ∨
      ∃ e, r = .error e ∧ (x.run.run frame).Course notes (.error e, frame') := by
  obtain ⟨told, rest, ⟨r', mid⟩, rfl, hx, hk⟩ := Process.Course.of_bind (p := x.run.run frame) h
  cases r' with
  | ok a => exact .inl ⟨told, rest, a, mid, rfl, hx, hk⟩
  | error e =>
    obtain ⟨rfl, heq⟩ := course_done.1 hk
    cases heq
    exact .inr ⟨e, rfl, (append_nil told).symm ▸ hx⟩

lemma course_tryCatch {handle : RunError → Exec α}
    (h : ((tryCatch x handle).run.run frame).Course notes (r, frame')) :
    (∃ a, r = .ok a ∧ (x.run.run frame).Course notes (.ok a, frame')) ∨
      ∃ told rest e mid, notes = told ++ rest ∧ (x.run.run frame).Course told (.error e, mid) ∧
        ((handle e).run.run mid).Course rest (r, frame') := by
  obtain ⟨told, rest, ⟨r', mid⟩, rfl, hx, hk⟩ := Process.Course.of_bind (p := x.run.run frame) h
  cases r' with
  | ok a =>
    obtain ⟨rfl, heq⟩ := course_done.1 hk
    cases heq
    exact .inl ⟨a, rfl, (append_nil told).symm ▸ hx⟩
  | error e => exact .inr ⟨told, rest, e, mid, rfl, hx, hk⟩

lemma course_located {i : Instr} {site : Site} (h : ((located i site x).run.run frame).Course notes (r, frame')) :
    (∃ a, r = .ok a ∧ (x.run.run frame).Course notes (.ok a, frame')) ∨
      ∃ told e, notes = told ++ [.failed i e.fault] ∧ r = .error (e.located site) ∧
        (x.run.run frame).Course told (.error e, frame') := by
  rcases course_tryCatch h with hok | ⟨told, rest, e, mid, rfl, hx, hthrow⟩
  · exact .inl hok
  · rcases hthrow with _ | hdone
    obtain ⟨rfl, heq⟩ := course_done.1 hdone
    cases heq
    exact .inr ⟨told, e, rfl, rfl, hx⟩

lemma course_bind_ok {a : α} {mid : Frame} {rest : List Note} {r : Except RunError β}
    (hx : (x.run.run frame).Course told (.ok a, mid)) (hk : ((k a).run.run mid).Course rest (r, frame')) :
    ((x >>= k).run.run frame).Course (told ++ rest) (r, frame') := hx.bind hk

lemma course_bind_error (hx : (x.run.run frame).Course notes (.error e, frame')) :
    ((x >>= k).run.run frame).Course notes (.error e, frame') := by
  have hcourse : ((x >>= k).run.run frame).Course (notes ++ []) (.error e, frame') := hx.bind (.done _)
  rwa [append_nil] at hcourse

end Exec

end Workflow
