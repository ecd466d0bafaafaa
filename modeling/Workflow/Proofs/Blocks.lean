import Mathlib.Tactic.Lemma
import Workflow.Source.Imports

/-!
Blocks of programs. In a full program each block has a statement and each match has a case.
-/

namespace Workflow

variable {ε α β : Type}

lemma Except.bind_eq_ok {x : Except ε α} {f : α → Except ε β} {b : β} :
    x >>= f = .ok b ↔ ∃ a, x = .ok a ∧ f a = .ok b := by
  cases x <;> simp [bind, Except.bind]

lemma Except.map_eq_ok {x : Except ε α} : x.map f = .ok b ↔ ∃ a, x = .ok a ∧ f a = b := by
  cases x <;> simp [Except.map]

lemma Except.foldlM_keeps {P : β → Prop} {f : β → α → Except ε β} (step : ∀ b a b', P b → f b a = .ok b' → P b') :
    ∀ (as : List α) {b b'}, P b → as.foldlM f b = .ok b' → P b'
  | [], b, b', hb, h => by cases h; exact hb
  | a :: as, b, b', hb, h => by
    obtain ⟨c, hc, h⟩ := Except.bind_eq_ok.1 h
    exact Except.foldlM_keeps step as (step b a c hb hc) h

mutual

def Stmt.Full : Stmt → Prop
  | .loop _ body _ => body ≠ [] ∧ Stmt.AllFull body
  | .forEach _ _ body _ => body ≠ [] ∧ Stmt.AllFull body
  | .branch _ thenBody elseBody _ =>
    thenBody ≠ [] ∧ Stmt.AllFull thenBody ∧ Stmt.AllFull elseBody
  | .select _ arms _ => arms ≠ [] ∧ Arm.AllFull arms
  | .failure body _ => body ≠ [] ∧ Stmt.AllFull body
  | _ => True

def Stmt.AllFull : List Stmt → Prop
  | [] => True
  | s :: rest => s.Full ∧ Stmt.AllFull rest

/-- Every block inside some cases has a statement. -/
def Arm.AllFull : List Arm → Prop
  | [] => True
  | .mk _ body _ :: rest => body.Full ∧ Arm.AllFull rest

end

lemma Stmt.allFull_of_forall : ∀ {stmts}, (∀ s ∈ stmts, s.Full) → Stmt.AllFull stmts
  | [], _ => trivial
  | s :: _, h => ⟨h s List.mem_cons_self, allFull_of_forall fun t ht => h t (.tail _ ht)⟩

lemma Arm.allFull_of_forall : ∀ {arms}, (∀ a ∈ arms, Arm.AllFull [a]) → Arm.AllFull arms
  | [], _ => trivial
  | .mk _ _ _ :: _, h => ⟨(h _ List.mem_cons_self).1, allFull_of_forall fun a ha => h a (.tail _ ha)⟩

def Decl.Full : Decl → Prop
  | .flow d => d.body ≠ [] ∧ Stmt.AllFull d.body
  | .handler d => d.body ≠ [] ∧ Stmt.AllFull d.body
  | _ => True

def Program.Full (p : Program) : Prop := ∀ d ∈ p.decls, d.Full

end Workflow
