import Workflow.Proofs.Approved
import Workflow.Value.Eval

/-!
Values of terms. A variable that a term misses is one that it reads and that has no value; all other
errors stay possible. Assigning never takes a value away: a variable that is written to has a value
afterwards, and the others keep theirs.
-/

namespace Workflow

open ValueError Scope Json

/-! ### Errors that do not occur -/

/-- A computation does not end in an error of one form. -/
def Except.Avoids {ε κ α : Type} (form : κ → ε) (x : Except ε α) : Prop := ∀ k, x ≠ .error (form k)

namespace Except.Avoids

variable {ε κ α β : Type} {form : κ → ε}

lemma ok (a : α) : Avoids form (.ok a) := nofun

lemma bind (hx : Avoids form x) (hf : ∀ a, Avoids form (f a)) : Avoids form (x >>= f) := by
  cases x with
  | ok a => exact hf a
  | error e =>
    intro k h
    cases h
    exact hx k rfl

lemma map (hx : Avoids form x) (f : α → β) : Avoids form (x.map f) := by
  cases x with
  | ok a => exact ok (f a)
  | error e =>
    intro k h
    cases h
    exact hx k rfl

end Except.Avoids

/-- The errors of one form that a computation ends in are of a kind. -/
def Except.Only {ε κ α : Type} (form : κ → ε) (P : κ → Prop) (x : Except ε α) : Prop :=
  ∀ k, x = .error (form k) → P k

namespace Except.Only

variable {ε κ α β : Type} {form : κ → ε} {P Q : κ → Prop} {x : Except ε α}

lemma ok (a : α) : Only form P (.ok a) := nofun

lemma of_avoids (h : Avoids form x) : Only form P x := fun k hk => absurd hk (h k)

lemma mono (h : Only form P x) (hPQ : ∀ k, P k → Q k) : Only form Q x :=
  fun k hk => hPQ k (h k hk)

lemma bind (hx : Only form P x) (hf : ∀ a, Only form P (f a)) : Only form P (x >>= f) := by
  cases x with
  | ok a => exact hf a
  | error e =>
    intro k h
    cases h
    exact hx k rfl

end Except.Only

open Workflow.Except (Avoids Only)

/-! ### Terms -/

lemma Json.lookup_notUndefined : ∀ (path : List String) (place : String) (v : Json),
    Avoids undefined (lookup place v path)
  | [], place, v => by
    cases v <;> exact .ok _
  | key :: path, place, v => by
    cases v with
    | obj fields =>
      unfold lookup
      split
      · exact lookup_notUndefined path _ _
      · exact nofun
    | _ => exact nofun

lemma Json.assign_notUndefined : ∀ (path : List String) (place : String) (new v : Json),
    Avoids undefined (assign place new v path)
  | [], place, new, v => by
    cases v <;> exact .ok _
  | [key], place, new, v => by
    cases v <;> exact nofun
  | key :: next :: path, place, new, v => by
    cases v with
    | obj fields =>
      unfold assign
      split
      · exact (assign_notUndefined (next :: path) _ _ _).bind fun _ => .ok _
      · exact nofun
    | _ => exact nofun

lemma BinOp.compare_notUndefined (op : BinOp) (left right : Json) : Avoids undefined (op.compare left right) := by
  unfold BinOp.compare
  split
  · dsimp only
    split
    · exact .ok _
    · split
      · exact .ok _
      · split
        · exact .ok _
        · exact nofun
  · exact .ok _
  · exact nofun

lemma BinOp.apply_notUndefined (op : BinOp) (left right : Json) : Avoids undefined (op.apply left right) := by
  cases op with
  | eq | notEq | similar | and | or => exact .ok _
  | lt | ltEq | gt | gtEq => exact (compare_notUndefined _ left right).map _
  | contains =>
    refine Avoids.map ?_ _
    cases left <;> cases right <;> exact nofun
  | add | sub => cases left <;> cases right <;> exact nofun

lemma Term.keep_notUndefined (path : List String) (op : BinOp) (wanted : Json) :
    ∀ items : List Json, Avoids undefined (Term.keep path op wanted items)
  | [] => .ok _
  | item :: rest => by
    unfold Term.keep
    split
    · exact Term.keep_notUndefined path op wanted rest
    · exact (op.apply_notUndefined _ _).bind fun _ =>
        (Term.keep_notUndefined path op wanted rest).bind fun _ => .ok _

/-- A variable without a value that every scope has in which something may be read. -/
structure Bindings.Lacks (b : Bindings) (within : Scope → Prop) (name : String) : Prop where
  unbound : b.contains name = false
  read : ∀ scope, within scope → name ∈ scope

lemma Bindings.Lacks.mono {b : Bindings} {within within' : Scope → Prop} (h : b.Lacks within name)
    (hsub : ∀ scope, within' scope → within scope) : b.Lacks within' name :=
  ⟨h.unbound, fun scope hscope => h.read scope (hsub scope hscope)⟩

lemma Bindings.get_lacks (b : Bindings) (name : String) : Only undefined (b.Lacks (name ∈ ·)) (b.get name) := by
  intro missing h
  unfold Bindings.get at h
  split at h
  · cases h
  · next hnone =>
    cases h
    exact ⟨by rw [Bindings.contains, hnone]; rfl, fun _ => id⟩

namespace Term

mutual

theorem eval_lacks (b : Bindings) : ∀ t : Term, Only undefined (b.Lacks (t.Within ·)) (t.eval b)
  | .literal _ => .ok _
  | .var name => b.get_lacks name
  | .path name keys => (b.get_lacks name).bind fun v => .of_avoids (lookup_notUndefined keys _ v)
  | .list items => (evalItems_lacks b items).bind fun _ => .ok _
  | .map entries => (evalEntries_lacks b entries).bind fun _ => .ok _
  | .binary op left right => by
    have hleft : Only undefined (b.Lacks ((binary op left right).Within ·)) (left.eval b) :=
      (eval_lacks b left).mono fun _ h => h.mono fun _ => And.left
    have hright : Only undefined (b.Lacks ((binary op left right).Within ·)) (right.eval b) :=
      (eval_lacks b right).mono fun _ h => h.mono fun _ => And.right
    cases op with
    | and =>
      refine hleft.bind fun v => ?_
      split
      · exact hright.bind fun _ => .ok _
      · exact .ok _
    | or =>
      refine hleft.bind fun v => ?_
      split
      · exact .ok _
      · exact hright.bind fun _ => .ok _
    | _ => exact hleft.bind fun x => hright.bind fun y => .of_avoids (BinOp.apply_notUndefined _ x y)
  | .not operand => (eval_lacks b operand).bind fun _ => .ok _
  | .filter source keys op value => by
    refine ((eval_lacks b source).mono fun _ h => h.mono fun _ => And.left).bind fun v => ?_
    split
    · refine ((eval_lacks b value).mono fun _ h => h.mono fun _ => And.right).bind fun wanted => ?_
      exact .of_avoids ((keep_notUndefined keys op wanted _).bind fun _ => .ok _)
    · exact nofun

theorem evalItems_lacks (b : Bindings) : ∀ ts : List Term, Only undefined (b.Lacks (AllWithin · ts)) (evalItems b ts)
  | [] => .ok _
  | t :: rest => ((eval_lacks b t).mono fun _ h => h.mono fun _ => And.left).bind fun _ =>
      ((evalItems_lacks b rest).mono fun _ h => h.mono fun _ => And.right).bind fun _ => .ok _

theorem evalEntries_lacks (b : Bindings) : ∀ ts : List (String × Term),
    Only undefined (b.Lacks (EntriesWithin · ts)) (evalEntries b ts)
  | [] => .ok _
  | (_, t) :: rest => ((eval_lacks b t).mono fun _ h => h.mono fun _ => And.left).bind fun _ =>
      ((evalEntries_lacks b rest).mono fun _ h => h.mono fun _ => And.right).bind fun _ => .ok _

end

end Term

/-! ### Scopes and bindings -/

namespace Scope

variable {s t : Scope} {name : String}

@[simp] lemma mem_insert : name ∈ insert s other ↔ name = other ∨ name ∈ s := by
  unfold insert
  split
  · next h =>
    refine ⟨.inr, fun hname => hname.elim (fun heq => ?_) id⟩
    rw [heq]
    exact List.contains_iff_mem.1 h
  · exact List.mem_cons

@[simp] lemma mem_union : ∀ {names s}, name ∈ union s names ↔ name ∈ s ∨ name ∈ names
  | [], s => by simp [union]
  | first :: rest, s => by
    have ih := @mem_union rest (insert s first)
    simp only [union, List.foldl_cons, mem_insert, List.mem_cons] at ih ⊢
    rw [ih, or_assoc, or_left_comm]

@[simp] lemma mem_inter : name ∈ inter s t ↔ name ∈ s ∧ name ∈ t := by
  simp [inter]

end Scope

namespace Bindings

variable {b : Bindings} {name other : String} {v : Json} {scope : Scope}

lemma get?_set (b : Bindings) (name other : String) (v : Json) :
    (b.set name v).get? other = if name = other then some v else b.get? other := by
  unfold get? set
  rw [Table.get?_insert]
  by_cases h : name = other <;> simp [h]

lemma contains_set (b : Bindings) (name other : String) (v : Json) :
    (b.set name v).contains other = (decide (name = other) || b.contains other) := by
  by_cases h : name = other
  · simp [contains, get?, set, h]
  · simp [contains, get?, set, Table.get?_insert, h]

lemma contains_erase (h : name ≠ other) : (b.erase name).contains other = b.contains other := by
  simp [contains, get?, erase, Table.get?_erase_of_ne b.locals h]

/-- A variable that gets back the local value it had before gets back its value; the others keep theirs. -/
lemma contains_restore {b' : Bindings} (hglobals : b'.globals = b.globals)
    (h : b.contains other = true) (h' : name ≠ other → b'.contains other = true) :
    (match b.locals.get? name with
      | some v => (b'.erase name).set name v
      | none => b'.erase name).contains other = true := by
  by_cases heq : name = other
  · subst heq
    cases hlocal : b.locals.get? name with
    | some v => simp [contains_set]
    | none =>
      simp only [contains, get?, hlocal] at h
      simp only [contains, get?, erase, hglobals]
      split
      · rfl
      · exact h
  · split
    · simp [contains_set, contains_erase heq, h' heq]
    · rw [contains_erase heq, h' heq]

lemma change_fst (b : Bindings) (name : String) (f : Json → Except ValueError Json) :
    (b.change name f).1 = b ∨ ∃ v, (b.change name f).1 = b.set name v := by
  unfold change
  cases b.get? name with
  | none => exact .inl rfl
  | some v =>
    refine .inr ?_
    dsimp only
    cases f v with
    | ok new => exact ⟨new, rfl⟩
    | error e => exact ⟨v, rfl⟩

lemma change_lacks (hf : ∀ v, Avoids undefined (f v)) : Only undefined (b.Lacks (name ∈ ·)) (b.change name f).2 := by
  unfold change
  cases hget : b.get? name with
  | none =>
    intro missing h
    cases h
    exact ⟨by rw [contains, hget]; rfl, fun _ => id⟩
  | some v =>
    have hfv := hf v
    dsimp only
    cases hresult : f v with
    | ok new => exact .ok ()
    | error e =>
      rw [hresult] at hfv
      exact .of_avoids fun missing h => hfv missing (by cases h; rfl)

lemma setPath_fst (b : Bindings) (name : String) (path : List String) (v : Json) :
    (b.setPath name path v).1 = b ∨ ∃ w, (b.setPath name path v).1 = b.set name w := by
  unfold setPath
  split
  · exact .inr ⟨v, rfl⟩
  · exact change_fst b name _

lemma setPath_lacks (b : Bindings) (name : String) (path : List String) (v : Json) :
    Only undefined (b.Lacks (name ∈ ·)) (b.setPath name path v).2 := by
  unfold setPath
  split
  · exact .ok ()
  · exact change_lacks fun root => assign_notUndefined path _ v root

lemma push_fst (b : Bindings) (name : String) (v : Json) : ∃ w, (b.push name v).1 = b.set name w := by
  unfold push change contains
  cases b.get? name with
  | none => exact ⟨.arr [v], rfl⟩
  | some w =>
    cases w with
    | arr items => exact ⟨.arr (items ++ [v]), rfl⟩
    | _ => exact ⟨_, rfl⟩

lemma push_notUndefined (b : Bindings) (name : String) (v : Json) : Avoids undefined (b.push name v).2 := by
  unfold push
  split
  · next h =>
    intro missing hmissing
    have hlacks := change_lacks (fun w => by cases w <;> exact nofun) missing hmissing
    obtain rfl := List.mem_singleton.1 (hlacks.read [name] List.mem_cons_self)
    exact absurd h (Bool.eq_false_iff.1 hlacks.unbound)
  · exact .ok ()

end Bindings

end Workflow
