import Workflow.Run.Arena
import Workflow.Run.Prompt

/-!
Conversations of agents. An agent asks its model turn by turn until it has an answer that the output handler and
the schema accept. In between the model may call agents as tools, or hand the conversation over to a delegate,
which puts its own instructions in front.
-/

namespace Workflow

/-- How a conversation begins. -/
inductive Opening where
  | input (text : String)
  /-- A conversation that is handed over. -/
  | transfer (history : List Message)

abbrev Invoke := Opening → Act Answer

/-- An agent in conversation: all that stays the same from turn to turn. -/
structure Speaker where
  spec : AgentSpec
  prompt : PromptSpec
  model : ModelSpec
  schema : Option SchemaSpec
  tools : List ToolDescriptor
  /-- What runs a delegate. -/
  delegate? : String → Option Invoke
  /-- What runs an agent that is offered as a tool. -/
  tool? : String → Option Invoke

/-- A conversation so far. -/
structure Conversation where
  messages : List Message
  /-- How many answers the schema has rejected. -/
  rejected : Nat := 0
  /-- How many answers the output handler has sent back. -/
  returned : Nat := 0

namespace Conversation

def add (v : Conversation) (more : List Message) : Conversation := { v with messages := v.messages ++ more }

end Conversation

def lastInput (history : List Message) : String :=
  ((history.reverse.find? (·.role = .user)).map (·.content)).getD ""

namespace Context

def callTool (guard : Guard) (s : Speaker) (tool input : String) : Act String := do
  match s.tool? tool with
  | none => pure ("tool '" ++ tool ++ "' is not available")
  | some invoke =>
    let guarded ← guard .toolCall input
    Process.emit (.toolCall s.spec.name tool guarded.text)
    let answer ← invoke (.input guarded.text)
    let result ← guard .toolResult answer.value.plainText
    Process.emit (.toolResult s.spec.name tool result.text)
    pure result.text

/-- Takes a text for the answer, unless the schema rejects it and may be asked for again. -/
def accept (c : Context) (s : Speaker) (v : Conversation) (text : String) : Act (Conversation ⊕ Answer) := do
  match valueOf s.schema text with
  | .error e =>
    let v := { v with rejected := v.rejected + 1 }
    if c.attempts ≤ v.rejected then
      Act.fail (.unstructured s.prompt.name ((s.schema.map (·.name)).getD "") c.attempts e.message)
    else pure (.inl (v.add [.assistant text, .user e.correction]))
  | .ok value =>
    let escalated ← escalates s.prompt s.spec.name text
    Process.emit (.agentFinished s.spec.name text)
    pure (.inr ⟨value, text, escalated⟩)

/-- Takes a text of the model for the answer, unless the output handler wants another one. -/
def settle (c : Context) (guard : Guard) (s : Speaker) (v : Conversation) (content : String) :
    Act (Conversation ⊕ Answer) := do
  let guarded ← guard .output content
  match guarded.retry with
  | some feedback =>
    if v.returned + 1 < c.attempts then
      pure (.inl ({ v with returned := v.returned + 1 }.add [.assistant guarded.text, .user feedback]))
    else c.accept s v guarded.text
  | none => c.accept s v guarded.text

/-- Does what the model wants: calls a tool, hands the conversation over, or answers. -/
def follow (c : Context) (guard : Guard) (s : Speaker) (v : Conversation) (reply : Reply) :
    Act (Conversation ⊕ Answer) := do
  match reply.action with
  | some (.call tool input) =>
    let output ← callTool guard s tool input
    pure (.inl (v.add [⟨.assistant, input, some tool⟩, .tool tool output]))
  | some (.transfer target) =>
    match s.delegate? target with
    | some invoke =>
      Process.emit (.transfer s.spec.name target)
      return .inr (← invoke (.transfer v.messages))
    | none => pure (.inl (v.add [.tool target ("'" ++ target ++ "' is not a delegate of " ++ s.spec.name)]))
  | none => c.settle guard s v reply.content

def turn (c : Context) (guard : Guard) (s : Speaker) (v : Conversation) : Act (Conversation ⊕ Answer) := do
  let reply ← c.complete (c.retry? s.spec.retry) (request s.model v.messages s.tools)
  if reply.content ≠ "" && reply.action.isSome then
    Process.emit (.modelOutput s.spec.name reply.content)
  c.follow guard s v reply

def turns (c : Context) (guard : Guard) (s : Speaker) : Nat → Conversation → Act Answer
  | 0, _ => Act.fail (.turnLimit s.spec.name c.settings.maxTurns)
  | left + 1, v => do
    match ← c.turn guard s v with
    | .inr answer => pure answer
    | .inl v => c.turns guard s left v

def openWith (guard : Guard) : Opening → Act (String × List Message)
  | .input text => do
    let guarded ← guard .input text
    pure (guarded.text, [.user guarded.text])
  | .transfer history => pure (lastInput history, history.filter (·.role ≠ .system))

def converse (c : Context) (guard : Guard) (bindings : Table Json) (spec : AgentSpec)
    (tools : List ToolDescriptor) (delegate? tool? : String → Option Invoke) (start : Opening) :
    Act Answer := do
  let p ← Act.ofExcept (c.prompt spec.instruction)
  let m ← Act.ofExcept (c.model none p.model)
  let schema ← Act.ofExcept (c.schema p)
  let (input, messages) ← openWith guard start
  let system := (Template.render p.template (bindings.insert "input" (.str input))).text
  Process.emit (.agentStarted spec.name input)
  c.turns guard ⟨spec, p, m, schema, tools, delegate?, tool?⟩ c.settings.maxTurns
    { messages := .system (withInstruction schema system) :: messages }

def limited (agent : String) (limit : Option Duration) (body : Act Answer) : Act Answer :=
  match limit with
  | none => body
  | some limit => ExceptT.mk <| Process.within limit body.run fun
    | some outcome => .done outcome
    | none => .done (.error { fault := .timeout agent limit })

mutual

def invoke (c : Context) (guard : Guard) (bindings : Table Json) : Hierarchy → Invoke
  | .node spec delegates tools => fun start =>
    limited spec.name (c.timeout? spec.timeout) <|
      c.converse guard bindings spec (Hierarchy.descriptors c.unit.tools (.node spec delegates tools))
        (c.invokeNamed guard bindings delegates) (c.invokeNamed guard bindings tools) start

/-- Runs the first hierarchy whose top has a name. -/
def invokeNamed (c : Context) (guard : Guard) (bindings : Table Json) : List Hierarchy → String → Option Invoke
  | [], _ => none
  | h :: rest, name =>
    if h.name = name then some (c.invoke guard bindings h) else c.invokeNamed guard bindings rest name

end

def runAgent (c : Context) (guard : Guard) (name : String) (args : List Json) (bindings : Table Json) : Act Answer := do
  match Hierarchy.build? c.unit.agents name with
  | none => Act.fail (.undefined "agent" name)
  | some h =>
    Process.note (.built name)
    c.invoke guard bindings h (.input (joinArgs args))

end Context

end Workflow
