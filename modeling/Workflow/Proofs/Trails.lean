import Mathlib.Logic.Function.Basic
import Workflow.Proofs.Yields

/-!
Trails of requests. `Process.Trail` relates a process to what it has asked up to some point, and to its result
if it has come to one. It may stop anywhere, so what holds of all trails holds at every moment of every run
(`Machine.trail_of_run`). Requests that come to nothing are part of it, and branches take turns in any order.
-/

namespace Workflow

open Process Function

/-- A request to a model, and what comes back, if anything has. -/
structure Exchange where
  request : Request
  reply : Option (Except ModelError Reply)

/-- A list takes turns between some lists, each in its own order. -/
inductive Interleaves {α : Type} {count : Nat} : (Fin count → List α) → List α → Prop where
  | nil : Interleaves (fun _ => []) []
  | cons {parts} {whole} (i : Fin count) (a : α) (rest : Interleaves parts whole) :
      Interleaves (update parts i (a :: parts i)) (a :: whole)

namespace Interleaves

variable {α : Type} {count : Nat} {parts : Fin count → List α} {whole : List α}

lemma sublist (h : Interleaves parts whole) (i : Fin count) : (parts i).Sublist whole := by
  induction h with
  | nil => exact .slnil
  | @cons parts whole j a _ ih =>
    by_cases hij : i = j
    · subst hij
      rw [update_self]
      exact ih.cons_cons a
    · rw [update_of_ne hij]
      exact ih.cons a

lemma exists_mem (h : Interleaves parts whole) (ha : a ∈ whole) : ∃ i, a ∈ parts i := by
  induction h with
  | nil => cases ha
  | @cons parts whole j b _ ih =>
    rcases List.mem_cons.1 ha with rfl | hmem
    · exact ⟨j, by rw [update_self]; exact .head _⟩
    · obtain ⟨i, hi⟩ := ih hmem
      refine ⟨i, ?_⟩
      by_cases hij : i = j
      · subst hij
        rw [update_self]
        exact .tail _ hi
      · rwa [update_of_ne hij]

lemma snoc (h : Interleaves parts whole) (i : Fin count) (a : α) :
    Interleaves (update parts i (parts i ++ [a])) (whole ++ [a]) := by
  induction h with
  | nil => exact .cons i a .nil
  | @cons parts whole j b _ ih =>
    have hparts : update (update parts j (b :: parts j)) i
        (update parts j (b :: parts j) i ++ [a]) =
        update (update parts i (parts i ++ [a])) j
          (b :: update parts i (parts i ++ [a]) j) := by
      by_cases hij : i = j
      · subst hij
        simp
      · rw [update_comm hij, update_of_ne hij, update_of_ne (Ne.symm hij)]
    rw [hparts]
    exact .cons j b ih

end Interleaves

namespace Process

/-- What a process has asked up to some point, and its result if that is the end. -/
inductive Trail : {α : Type} → Process α → List Exchange → Option α → Prop where
  /-- It may stop anywhere. -/
  | here {α : Type} {p : Process α} : Trail p [] none
  | done {α : Type} (a : α) : Trail (.done a) [] (some a)
  | tell {α : Type} {notes next asked} {r : Option α} (after : Trail (next ()) asked r) :
      Trail (.tell notes next) asked r
  | waits {α : Type} {request} {next : _ → Process α} : Trail (.ask request next) [⟨request, none⟩] none
  | ask {α : Type} {request next asked} {r : Option α} (reply : Except ModelError Reply)
      (after : Trail (next reply) asked r) : Trail (.ask request next) (⟨request, some reply⟩ :: asked) r
  | sleep {α : Type} {time next asked} {r : Option α} (after : Trail (next ()) asked r) :
      Trail (.sleep time next) asked r
  | inside {α : Type} {limit body} {next : _ → Process α} {asked o} (within : Trail body asked o) :
      Trail (.within limit body next) asked none
  | inTime {α : Type} {limit body next asked rest} {r : Option α} {o} (within : Trail body asked (some o))
      (after : Trail (next (some o)) rest r) : Trail (.within limit body next) (asked ++ rest) r
  | late {α : Type} {limit body next asked rest} {r : Option α} {o} (within : Trail body asked o)
      (after : Trail (next none) rest r) : Trail (.within limit body next) (asked ++ rest) r
  | beside {α : Type} {count branch} {next : _ → Process α} {parts} {ends : Fin count → Option Outcome} {asked}
      (within : ∀ i, Trail (branch i) (parts i) (ends i)) (order : Interleaves parts asked) :
      Trail (.parallel count branch next) asked none
  | joined {α : Type} {count branch next parts asked rest} {r : Option α} (answers : Fin count → Answer)
      (within : ∀ i, Trail (branch i) (parts i) (some (.ok (answers i)))) (order : Interleaves parts asked)
      (after : Trail (next (.ok (List.ofFn answers))) rest r) :
      Trail (.parallel count branch next) (asked ++ rest) r
  | failed {α : Type} {count branch next parts} {ends : Fin count → Option Outcome} {asked rest} {r : Option α}
      {e : RunError} (i : Fin count) (failure : ends i = some (.error e))
      (within : ∀ i, Trail (branch i) (parts i) (ends i)) (order : Interleaves parts asked)
      (after : Trail (next (.error e)) rest r) : Trail (.parallel count branch next) (asked ++ rest) r

end Process

variable {asked : List Exchange}

namespace Process

variable {α β : Type} {r : Option α} {p : Process α}

lemma trail_done {a : α} (h : (done a).Trail asked r) : asked = [] ∧ (r = none ∨ r = some a) := by
  cases h with
  | here => exact ⟨rfl, .inl rfl⟩
  | done => exact ⟨rfl, .inr rfl⟩

lemma Trail.open (h : p.Trail asked r) : p.Trail asked none := by
  induction h with
  | here | done => exact .here
  | tell _ ih => exact .tell ih
  | waits => exact .waits
  | ask reply _ ih => exact .ask reply ih
  | sleep _ ih => exact .sleep ih
  | inside within => exact .inside within
  | inTime within _ _ ih => exact .inTime within ih
  | late within _ _ ih => exact .late within ih
  | beside within order => exact .beside within order
  | joined answers within order _ _ ih => exact .joined answers within order ih
  | failed i failure within order _ _ ih => exact .failed i failure within order ih

/-- A trail of a process and then another stops in the first, or has a trail of the second behind a result of
the first. -/
def Trail.Splits (p : Process α) (f : α → Process β) (asked : List Exchange) (r : Option β) : Prop :=
  r = none ∧ p.Trail asked none ∨ ∃ first rest a, asked = first ++ rest ∧ p.Trail first (some a) ∧ (f a).Trail rest r

lemma Trail.Splits.behind {f : α → Process β} {r : Option β} {q : Process α} (before : List Exchange)
    (hbefore : ∀ {asked} {r : Option α}, q.Trail asked r → p.Trail (before ++ asked) r) (h : Splits q f asked r) :
    Splits p f (before ++ asked) r := by
  rcases h with ⟨rfl, hopen⟩ | ⟨first, rest, a, rfl, ha, hb⟩
  · exact .inl ⟨rfl, hbefore hopen⟩
  · exact .inr ⟨before ++ first, rest, a, (List.append_assoc ..).symm, hbefore ha, hb⟩

lemma Trail.of_bind {f : α → Process β} {r : Option β} (h : (p >>= f).Trail asked r) : Splits p f asked r := by
  induction p generalizing asked with
  | done a => exact .inr ⟨[], asked, a, rfl, .done a, h⟩
  | stuck =>
    cases h
    exact .inl ⟨rfl, .here⟩
  | tell notes next ih =>
    rcases h with _ | _ | after
    · exact .inl ⟨rfl, .here⟩
    · exact (ih () after).behind [] .tell
  | ask request next ih =>
    rcases h with _ | _ | _ | _ | ⟨reply, after⟩
    · exact .inl ⟨rfl, .here⟩
    · exact .inl ⟨rfl, .waits⟩
    · exact (ih reply after).behind [_] (.ask reply)
  | sleep time next ih =>
    rcases h with _ | _ | _ | _ | _ | after
    · exact .inl ⟨rfl, .here⟩
    · exact (ih () after).behind [] .sleep
  | within limit body next _ ih =>
    cases h with
    | here => exact .inl ⟨rfl, .here⟩
    | inside within => exact .inl ⟨rfl, .inside within⟩
    | inTime within after => exact (ih _ after).behind _ (.inTime within)
    | late within after => exact (ih none after).behind _ (.late within)
  | parallel count branch next _ ih =>
    cases h with
    | here => exact .inl ⟨rfl, .here⟩
    | beside within order => exact .inl ⟨rfl, .beside within order⟩
    | joined answers within order after => exact (ih _ after).behind _ (.joined answers within order)
    | failed i failure within order after => exact (ih _ after).behind _ (.failed i failure within order)

lemma Trail.yields (h : p.Trail asked r) : ∀ a ∈ r, p.Yields a := by
  induction h with
  | here | waits | inside _ | beside _ _ => nofun
  | done a => exact fun b hb => Option.some.inj hb ▸ .done a
  | tell _ ih => exact fun a ha => .tell (ih a ha)
  | ask reply _ ih => exact fun a ha => .ask reply (ih a ha)
  | sleep _ ih => exact fun a ha => .sleep (ih a ha)
  | inTime _ _ inside ih => exact fun a ha => .inTime (inside _ rfl) (ih a ha)
  | late _ _ _ ih => exact fun a ha => .late (ih a ha)
  | joined answers _ _ _ inside ih => exact fun a ha => .joined answers (fun i => inside i _ rfl) (ih a ha)
  | failed i failure _ _ _ inside ih => exact fun a ha => .failed i (inside i _ failure) (ih a ha)

end Process

/-! ### Processes that may fail -/

namespace Act

variable {α β : Type} {r : Option (Except RunError β)} {k : α → Act β}

lemma trail_pure {a : α} {r : Option (Except RunError α)} (h : (pure a : Act α).run.Trail asked r) :
    asked = [] ∧ (r = none ∨ r = some (.ok a)) := trail_done h

lemma trail_fail {fault : RunFault} {r : Option (Except RunError α)} (h : (fail fault : Act α).run.Trail asked r) :
    asked = [] ∧ (r = none ∨ r = some (.error { fault := fault })) := trail_done h

lemma trail_bind {x : Act α} (h : (x >>= k).run.Trail asked r) :
    (r = none ∧ x.run.Trail asked none ∨ ∃ e, r = some (.error e) ∧ x.run.Trail asked (some (.error e))) ∨
      ∃ first rest a, asked = first ++ rest ∧ x.run.Trail first (some (.ok a)) ∧ (k a).run.Trail rest r := by
  rcases Process.Trail.of_bind (p := x.run) h with hopen | ⟨first, rest, r', rfl, hx, hk⟩
  · exact .inl (.inl hopen)
  · cases r' with
    | ok a => exact .inr ⟨first, rest, a, rfl, hx, hk⟩
    | error e =>
      obtain ⟨rfl, rfl | rfl⟩ := trail_done hk
      · exact .inl (.inl ⟨rfl, (List.append_nil first).symm ▸ hx.open⟩)
      · exact .inl (.inr ⟨e, rfl, (List.append_nil first).symm ▸ hx⟩)

lemma trail_note {n : Note} {k : Unit → Act β} (h : ((liftM (note n) : Act Unit) >>= k).run.Trail asked r) :
    (asked = [] ∧ r = none) ∨ (k ()).run.Trail asked r := by
  rcases h with _ | _ | after
  · exact .inl ⟨rfl, rfl⟩
  · exact .inr after

lemma trail_ofExcept (h : (ofExcept x >>= k).run.Trail asked r) :
    (asked = [] ∧ (r = none ∨ ∃ fault, x = .error fault ∧ r = some (.error { fault := fault }))) ∨
      ∃ a, x = .ok a ∧ (k a).run.Trail asked r := by
  cases x with
  | ok a => exact .inr ⟨a, rfl, h⟩
  | error fault =>
    obtain ⟨rfl, hr⟩ := trail_done h
    exact .inl ⟨rfl, hr.imp_right fun hr => ⟨fault, rfl, hr⟩⟩

end Act

end Workflow
