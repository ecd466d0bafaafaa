import Workflow.Run.Error
import Workflow.Run.Event
import Workflow.Unit.Basic

/-!
Processes: what a run does, as a tree. A process is done, or takes a step and goes on with what comes back. The
tree says nothing about time and the order of branches, so a statement about all its paths holds for every
scheduler.
-/

namespace Workflow

/-- What running an agent or calling a prompt gives. -/
structure Answer where
  /-- The structured answer, or the text as a string. -/
  value : Json
  text : String
  /-- Whether the prompt's escalation condition was met. -/
  escalated : Bool := false

def Answer.toJson (a : Answer) : Json :=
  .obj [("value", a.value), ("text", .str a.text), ("escalated", .bool a.escalated)]

abbrev Outcome := Except RunError Answer

/-- What a run notes down: events, the hierarchies it lays out, the teardown, statements that fail, and failure
blocks that take over. -/
inductive Note where
  | event (e : Event)
  | built (agent : String)
  | teardown
  /-- A statement fails with a fault, its own or that of a statement inside it. -/
  | failed (i : Instr) (fault : RunFault)
  /-- The failure block of a flow takes over. -/
  | recovered (flow : String)

/-- A process with a result of type `α`. -/
inductive Process : Type → Type 1 where
  | done {α : Type} (a : α) : Process α
  /-- Out of fuel: nothing is known about how it goes on. -/
  | stuck {α : Type} : Process α
  | tell {α : Type} (notes : List Note) (next : Unit → Process α) : Process α
  | ask {α : Type} (request : Request) (next : Except ModelError Reply → Process α) : Process α
  | sleep {α : Type} (time : Duration) (next : Unit → Process α) : Process α
  /-- Runs the body; nothing comes back if it takes longer than the limit. -/
  | within {α : Type} (limit : Duration) (body : Process Outcome) (next : Option Outcome → Process α) : Process α
  /-- Runs all branches; comes back with the first failure, or when all have succeeded. -/
  | parallel {α : Type} (count : Nat) (branch : Fin count → Process Outcome)
      (next : Except RunError (List Answer) → Process α) : Process α

namespace Process

/-- One process, and then another that its result decides. -/
def bind {α β : Type} : Process α → (α → Process β) → Process β
  | done a, f => f a
  | stuck, _ => stuck
  | tell notes next, f => tell notes fun u => (next u).bind f
  | ask request next, f => ask request fun a => (next a).bind f
  | sleep time next, f => sleep time fun u => (next u).bind f
  | within limit body next, f => within limit body fun o => (next o).bind f
  | parallel count branch next, f => parallel count branch fun r => (next r).bind f

instance : Monad Process where
  pure := done
  bind := bind

@[simp] theorem pure_bind {α β : Type} (a : α) (f : α → Process β) : (done a).bind f = f a := rfl

theorem bind_done {α : Type} (p : Process α) : p.bind done = p := by
  induction p with
  | done a => rfl
  | stuck => rfl
  | tell notes next ih => exact congrArg _ (funext ih)
  | ask request next ih => exact congrArg _ (funext ih)
  | sleep time next ih => exact congrArg _ (funext ih)
  | within limit body next _ ih => exact congrArg _ (funext ih)
  | parallel count branch next _ ih => exact congrArg _ (funext ih)

theorem bind_assoc {α β γ : Type} (p : Process α) (f : α → Process β) (g : β → Process γ) :
    (p.bind f).bind g = p.bind fun a => (f a).bind g := by
  induction p with
  | done a => rfl
  | stuck => rfl
  | tell notes next ih => exact congrArg _ (funext fun x => ih x f)
  | ask request next ih => exact congrArg _ (funext fun x => ih x f)
  | sleep time next ih => exact congrArg _ (funext fun x => ih x f)
  | within limit body next _ ih => exact congrArg _ (funext fun x => ih x f)
  | parallel count branch next _ ih => exact congrArg _ (funext fun x => ih x f)

instance : LawfulMonad Process := LawfulMonad.mk' Process bind_done (fun _ _ => rfl) bind_assoc

def note (n : Note) : Process Unit := tell [n] done

def emit (e : Event) : Process Unit := note (.event e)

def wait (time : Duration) : Process Unit := sleep time done

def request (r : Request) : Process (Except ModelError Reply) := ask r done

def branches (ps : List (Process Outcome)) : Process (Except RunError (List Answer)) :=
  parallel ps.length ps.get done

def pause : Process Unit := tell [] done

end Process

abbrev Act (α : Type) := ExceptT RunError Process α

namespace Act

def fail {α : Type} (fault : RunFault) : Act α := throw { fault := fault }

def ofExcept {α : Type} (x : Except RunFault α) : Act α :=
  match x with
  | .ok a => pure a
  | .error fault => fail fault

def stuck {α : Type} : Act α := ExceptT.mk .stuck

end Act

end Workflow
