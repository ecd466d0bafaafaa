import Workflow.Run.Context
import Workflow.Value.Eval

/-!
Blocks of statements. A statement changes the variables of its frame and says how to go on: with the next one,
with the next turn of the loop, or back to the caller. An error names the innermost statement it arose in.
-/

namespace Workflow

/-- How to go on after a statement. -/
inductive Control where
  | next
  | continue
  | ret (value : Json)

def Control.value : Control → Json
  | ret v => v
  | _ => .null

/-- Variables of an invocation, and the text it guards if it is a guardrail handler. -/
structure Frame where
  bindings : Bindings
  guard : Option Guarded := none

/-- What statements can call. -/
structure Calls where
  agent : String → List Json → Table Json → Act Answer
  prompt : String → List Json → Option String → Table Json → Act Answer
  flow : String → List Json → Act Json

/-- A process in a frame. The frame outlives an error. -/
abbrev Exec (α : Type) := ExceptT RunError (StateT Frame Process) α

namespace Exec

def ofAct {α : Type} (a : Act α) : Exec α := ExceptT.mk (StateT.lift a.run)

def fail {α : Type} (fault : RunFault) : Exec α := throw { fault := fault }

/-- Runs a statement. If it fails, that is noted, and the error arose there unless it knows better. -/
def located {α : Type} (i : Instr) (site : Site) (x : Exec α) : Exec α :=
  tryCatch x fun e => do
    Process.note (.failed i e.fault)
    throw (e.located site)

/-- Does something last, whether the rest fails or not. -/
def lastly {α : Type} (x : Exec α) (last : Exec Unit) : Exec α := do
  let a ← tryCatch x fun e => do
    last
    throw e
  last
  pure a

def eval (t : Term) : Exec Json := do
  match t.eval (← get).bindings with
  | .ok v => pure v
  | .error e => fail (.value e)

def evalAll : List Term → Exec (List Json)
  | [] => pure []
  | t :: rest => do
    let v ← eval t
    return v :: (← evalAll rest)

def change (f : Bindings → Bindings × Except ValueError Unit) : Exec Unit := do
  let frame ← get
  let (b, result) := f frame.bindings
  set { frame with bindings := b }
  match result with
  | .ok _ => pure ()
  | .error e => fail (.value e)

def assign (name : String) (v : Json) : Exec Unit := change fun b => (b.set name v, .ok ())

/-- Gives a variable a value, if there is one to take it. -/
def assignTo (target : Option String) (v : Json) : Exec Unit :=
  match target with
  | some name => assign name v
  | none => pure ()

def visible : Exec (Table Json) := return (← get).bindings.visible

/-- Turns of a loop, of which so many are left. A loop without a bound that has used up its turns is
stuck. -/
def turns (bounded : Bool) (body : Exec Control) : Nat → Exec Control
  | 0 => if bounded then pure .next else ofAct Act.stuck
  | left + 1 => do
    Process.pause
    match ← body with
    | .ret v => pure (.ret v)
    | _ => turns bounded body left

def eachItem (var : String) (body : Exec Control) : List Json → Exec Control
  | [] => pure .next
  | v :: rest => do
    Process.pause
    assign var v
    match ← body with
    | .ret v => pure (.ret v)
    | _ => eachItem var body rest

/-- A loop over a list. Behind it the loop variable is what it was before. -/
def forEach (var : String) (iterable : Term) (body : Exec Control) : Exec Control := do
  match ← eval iterable with
  | .arr items =>
    let before := (← get).bindings.locals.get? var
    change fun b => (b.erase var, .ok ())
    lastly (eachItem var body items) do
      change fun b => (match before with
        | some v => (b.erase var).set var v
        | none => b.erase var, .ok ())
  | other => fail (.value (.typeMismatch iterable.display "a list" other.typeName))

/-- Takes the answer of an agent or a prompt, or follows what is said about escalations. -/
def settle (source : String) (target : Option String) (onEscalate : Option (EscalateAction Term))
    (answer : Answer) : Exec Control := do
  match onEscalate, answer.escalated with
  | some (.ret value), true => return .ret (← eval value)
  | some .continue, true => pure .continue
  | some .abort, true => fail (.escalated source)
  | _, _ =>
    assignTo target answer.value
    pure .next

/-- Runs agents side by side. Arguments are evaluated before the first agent runs, and results are assigned in
order. -/
def parallel (calls : Calls) (branches : List ParallelCall) : Exec Unit := do
  let bindings ← visible
  let args ← branches.mapM fun b => evalAll b.args
  let processes := (branches.zip args).map fun (b, args) => (calls.agent b.agent args bindings).run
  match ← Process.branches processes with
  | .error e => throw e
  | .ok answers => (branches.zip answers).forM fun (b, answer) => assignTo b.target answer.value

end Exec

namespace Context

def guardAction (c : Context) (kind : GuardKind) (name : String) (message : Option String) : Exec Control := do
  match (← get).guard with
  | none => Exec.fail (.misplaced "guardrail action")
  | some guarded =>
    let check : Exec Bool := Exec.ofAct (Act.ofExcept ((c.guardrails.check name guarded.text).mapError .guardrail))
    match kind with
    | .mask =>
      let text ← Exec.ofAct (Act.ofExcept ((c.guardrails.mask name guarded.text).mapError .guardrail))
      modify fun f => { f with guard := some { guarded with text := text } }
      Exec.assign "input" (.str text)
    | .block => if ← check then Exec.fail (.blocked guarded.event name)
    | .warn => if ← check then Process.emit (.guardrailWarning guarded.event.name name)
    | .retry =>
      if ← check then
        let feedback := message.getD ("Your answer was rejected by the '" ++ name ++ "' guardrail. Answer again.")
        modify fun f => { f with guard := some { guarded with retry := some feedback } }
    pure .next

mutual

def execInstr (c : Context) (calls : Calls) (bound : Nat) : Instr → Exec Control
  | .mk _ op body =>
    match op with
    | .branch condition => do
      if (← Exec.eval condition).truthy then c.execBlock calls bound body else pure .next
    | .loop max => Exec.turns max.isSome (c.execBlock calls bound body) (max.getD bound)
    | .forEach var iterable => Exec.forEach var iterable (c.execBlock calls bound body)
    | .select subject => do c.execArms calls bound (← Exec.eval subject) body
    | .assign target value => do
      Exec.assign target (← Exec.eval value)
      pure .next
    | .setPath target path value => do
      let v ← Exec.eval value
      Exec.change fun b => b.setPath target path v
      pure .next
    | .runAgent target name args onEscalate => do
      let args ← Exec.evalAll args
      let answer ← Exec.ofAct (calls.agent name args (← Exec.visible))
      Exec.settle name target onEscalate answer
    | .callPrompt target name args model onEscalate => do
      let args ← Exec.evalAll args
      let answer ← Exec.ofAct (calls.prompt name args model (← Exec.visible))
      Exec.settle name target onEscalate answer
    | .runFlow target name args => do
      let args ← Exec.evalAll args
      Exec.assignTo target (← Exec.ofAct (calls.flow name args))
      pure .next
    | .parallel branches => do
      Exec.parallel calls branches
      pure .next
    | .ret value => return .ret (← Exec.eval value)
    | .continue => pure .continue
    | .abort (some message) => do Exec.fail (.aborted (← Exec.eval message).plainText)
    | .abort none => Exec.fail (.aborted "workflow aborted")
    | .push value target => do
      let v ← Exec.eval value
      Exec.change fun b => b.push target v
      pure .next
    | .log message => do
      let v ← Exec.eval message
      Process.emit (.log v.plainText)
      pure .next
    | .guard kind name message => c.guardAction kind name message
    | .onFailure => Exec.fail (.misplaced "on failure")
    | _ => pure .next

/-- Runs a block. An `otherwise` belongs to the `branch` right before it. -/
def execBlock (c : Context) (calls : Calls) (bound : Nat) : List Instr → Exec Control
  | [] => pure .next
  | .mk line (.branch condition) body :: .mk _ .otherwise other :: rest => do
    let control ← Exec.located (.mk line (.branch condition) body) (c.site line) do
      if (← Exec.eval condition).truthy then c.execBlock calls bound body
      else c.execBlock calls bound other
    match control with
    | .next => c.execBlock calls bound rest
    | control => pure control
  | i :: rest => do
    match ← Exec.located i (c.site i.line) (c.execInstr calls bound i) with
    | .next => c.execBlock calls bound rest
    | control => pure control

def execArms (c : Context) (calls : Calls) (bound : Nat) (v : Json) : List Instr → Exec Control
  | [] => pure .next
  | .mk _ (.arm none) body :: _ => c.execBlock calls bound body
  | .mk _ (.arm (some pattern)) body :: rest =>
    if pattern.looselyEqual v then c.execBlock calls bound body else c.execArms calls bound v rest
  | _ :: rest => c.execArms calls bound v rest

end

end Context

end Workflow
