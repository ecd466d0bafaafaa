import Workflow.Run.Agent
import Workflow.Run.Block
import Workflow.Run.Machine

/-!
Runs of flows, agents and prompts. A run first executes the start handlers, whose variables become its globals,
then its entry, and at its end tears down the hierarchies it has laid out. Fuel bounds how deep calls go.
-/

namespace Workflow

/-- The input of a flow: its only argument, a list of several, or nothing. -/
def flowInput : List Json → Json
  | [] => .null
  | [v] => v
  | args => .arr args

namespace Calls

def of (c : Context) (guard : Guard) (flow : String → List Json → Act Json) : Calls :=
  ⟨c.runAgent guard, c.callPrompt guard, flow⟩

end Calls

namespace Scene

/-- Variables of an invocation that starts with an input. -/
def frame (s : Scene) (input : Json) : Frame := { bindings := ⟨[("input", input)], s.globals⟩ }

/-- Variables of a handler that a text passes through. -/
def handlerFrame (s : Scene) (event : HandlerEvent) (text : String) : Frame :=
  { s.frame (.str text) with guard := some { event := event, text := text } }

/-- Variables of a flow that is called with arguments: its input, and the parameters. -/
def flowFrame (s : Scene) (f : FlowUnit) (args : List Json) : Frame :=
  let frame := s.frame (flowInput args)
  { frame with
    bindings := (f.params.zip args).foldl (fun b (param, arg) => b.set param arg) frame.bindings }

def pass (s : Scene) (calls : Calls) (bound : Nat) (event : HandlerEvent) (text : String) : Act Guarded := do
  match s.unit.handler? event with
  | none => pure { event := event, text := text }
  | some block =>
    match ← (s.execBlock calls bound block).run.run (s.handlerFrame event text) with
    | (.ok _, frame) =>
      match frame.guard with
      | some guarded => pure guarded
      | none => Act.fail (.misplaced "guardrail handler")
    | (.error e, _) => throw e

end Scene

/-- Variables of a failure block: those of the body where it failed, and the error. -/
def Frame.failed (frame : Frame) (e : RunError) : Frame :=
  { frame with bindings := frame.bindings.set "error" e.toValue }

namespace Scene

/-- Runs the body of a flow. When it fails, and not for good, the `on failure` block goes on in the same frame. -/
def runBody (s : Scene) (calls : Calls) (bound : Nat) (f : FlowUnit) (args : List Json) : Act Json := do
  match ← (s.execBlock calls bound f.body).run.run (s.flowFrame f args) with
  | (.ok control, _) => pure control.value
  | (.error e, frame) =>
    match f.onFailure, e.fault.isFatal with
    | some block, false =>
      Process.note (.recovered f.name)
      match ← (s.execBlock calls bound block).run.run (frame.failed e) with
      | (.ok control, _) => pure control.value
      | (.error e, _) => throw e
    | _, _ => throw e

def runFlow (s : Scene) (calls : Calls) (bound : Nat) (name : String) (args : List Json) : Act Json := do
  let f ← Act.ofExcept (Context.entry "flow" s.unit.flows name)
  if !f.params.isEmpty && f.params.length ≠ args.length then
    Act.fail (.arity name f.params.length args.length)
  Process.emit (.flowStarted name)
  let value ← s.runBody calls bound f args
  Process.emit (.flowFinished name value)
  pure value

mutual

def guardText (s : Scene) : Nat → HandlerEvent → String → Act Guarded
  | 0, _, _ => Act.stuck
  | fuel + 1, event, text =>
    s.pass (Calls.of s.toContext (s.guardText fuel) (s.callFlow fuel)) fuel event text

def callFlow (s : Scene) : Nat → String → List Json → Act Json
  | 0, _, _ => Act.stuck
  | fuel + 1, name, args =>
    s.runFlow (Calls.of s.toContext (s.guardText fuel) (s.callFlow fuel)) fuel name args

end

def calls (s : Scene) (fuel : Nat) : Calls := Calls.of s.toContext (s.guardText fuel) (s.callFlow fuel)

end Scene

/-- What a run is about. -/
inductive Entry where
  | flow (name : String)
  | agent (name : String)
  | prompt (name : String) (model : Option String)
  deriving DecidableEq, Repr

namespace Context

/-- Executes the start handlers; their variables but the input are the globals of the run. -/
def start (c : Context) (fuel : Nat) (input : Json) : Act (Table Json) := do
  match c.unit.handler? .start with
  | none => pure []
  | some block =>
    let s : Scene := { c with globals := [] }
    match ← (s.execBlock (s.calls fuel) fuel block).run.run (s.frame input) with
    | (.ok _, frame) => pure (frame.bindings.locals.erase "input")
    | (.error e, _) => throw e

def enter (s : Scene) (fuel : Nat) (args : List Json) : Entry → Act Answer
  | .flow name => do
    let value ← s.callFlow fuel name args
    pure ⟨value, value.plainText, false⟩
  | .agent name => s.runAgent (s.guardText fuel) name args []
  | .prompt name model => s.callPrompt (s.guardText fuel) name args model []

/-- A run as a process. A run that fails in a start handler has nothing more to do. -/
def process (c : Context) (fuel : Nat) (entry : Entry) (args : List Json) : Act Answer := do
  let globals ← c.start fuel (flowInput args)
  let s : Scene := { c with globals := globals }
  ExceptT.mk do
    let outcome ← (enter s fuel args entry).run
    Process.note .teardown
    pure outcome

/-- The events among notes. `built` has the agents whose hierarchies are laid out, which tearing down closes by
name. -/
def events (c : Context) (built : Table Unit) : List Note → List Event
  | [] => []
  | .event e :: rest => e :: c.events built rest
  | .built agent :: rest => c.events (built.insert agent ()) rest
  | .teardown :: rest =>
    let trees := built.names.filterMap (Hierarchy.build? c.unit.agents)
    (trees.flatMap fun h => (h.closings false).map fun x => .agentClosed x.agent x.asTool) ++ c.events [] rest
  | .failed _ _ :: rest => c.events built rest
  | .recovered _ :: rest => c.events built rest

end Context

/-- What a run comes to. -/
structure Report (σ : Type) where
  /-- The outcome, unless the fuel ran out. -/
  outcome : Option Outcome
  events : List Event
  requests : List Request
  elapsed : Duration
  /-- The client after the run. -/
  client : σ

def Context.run {σ : Type} (c : Context) (client : Client σ) (state : σ) (fuel : Nat) (entry : Entry)
    (args : List Json) : Report σ :=
  let m := Machine.run client fuel (Machine.start state (c.process fuel entry args).run)
  ⟨m.result, c.events [] m.notes.reverse, m.requests.reverse, m.now, m.client⟩

end Workflow
