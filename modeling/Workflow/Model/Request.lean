import Workflow.Listing.Json

/-!
Requests to a language model and its replies. A request carries a conversation; a reply is a text,
or an action that the model asks for instead of answering.
-/

namespace Workflow

/-- Who a message is from. -/
inductive Role where
  | system
  | user
  | assistant
  | tool
  deriving DecidableEq, Repr

def Role.name : Role → String
  | system => "system"
  | user => "user"
  | assistant => "assistant"
  | tool => "tool"

/-- A message of a conversation. -/
structure Message where
  role : Role
  content : String
  /-- The tool or agent that the message came from. -/
  name : Option String := none
  deriving DecidableEq, Repr

namespace Message

def system (content : String) : Message := ⟨.system, content, none⟩

def user (content : String) : Message := ⟨.user, content, none⟩

def assistant (content : String) : Message := ⟨.assistant, content, none⟩

def tool (name content : String) : Message := ⟨.tool, content, some name⟩

def toJson (m : Message) : Json :=
  .record [("role", some (.str m.role.name)), ("content", some (.str m.content)), ("name", m.name.map .str)]

def ofJson? (v : Json) : Option Message := do
  let role ← (v.field? "role").bind (Workflow.ofName? [.system, .user, .assistant, .tool] Role.name)
  some ⟨role, ← v.fieldString? "content", ← v.fieldStringOrNone? "name"⟩

end Message

/-- What kind of thing a tool is. -/
inductive ToolRole where
  /-- An agent that is called with an input and gives its answer back. -/
  | agent
  /-- An agent that takes the conversation over. -/
  | transfer
  /-- A declared tool outside. -/
  | external
  deriving DecidableEq, Repr

def ToolRole.name : ToolRole → String
  | agent => "agent"
  | transfer => "transfer"
  | external => "external"

/-- A tool that is offered to a model. -/
structure ToolDescriptor where
  name : String
  description : String
  role : ToolRole
  deriving DecidableEq, Repr

namespace ToolDescriptor

def toJson (t : ToolDescriptor) : Json :=
  .obj [("name", .str t.name), ("description", .str t.description), ("role", .str t.role.name)]

def ofJson? (v : Json) : Option ToolDescriptor := do
  let role ← (v.field? "role").bind (Workflow.ofName? [.agent, .transfer, .external] ToolRole.name)
  some ⟨← v.fieldString? "name", ← v.fieldString? "description", role⟩

end ToolDescriptor

/-- A request to a model. -/
structure Request where
  /-- The model, with its provider in front. -/
  model : String
  messages : List Message
  temperature : Option Float := none
  maxTokens : Option Nat := none
  tools : List ToolDescriptor := []

namespace Request

def system? (r : Request) : Option String := (r.messages.find? (·.role = .system)).map (·.content)

def lastUser? (r : Request) : Option String := (r.messages.reverse.find? (·.role = .user)).map (·.content)

def transcript (r : Request) : String := "\n".intercalate (r.messages.map (·.content))

def toJson (r : Request) : Json :=
  .record [("model", some (.str r.model)), ("messages", some (.arr (r.messages.map Message.toJson))),
    ("temperature", some (Json.orNull .float r.temperature)), ("max_tokens", some (Json.orNull .nat r.maxTokens)),
    ("tools", if r.tools.isEmpty then none else some (.arr (r.tools.map ToolDescriptor.toJson)))]

def ofJson? (v : Json) : Option Request := do
  let messages ← (← (← v.field? "messages").items?).mapM Message.ofJson?
  let tools ← match v.field? "tools" with
    | none => some []
    | some ts => (← ts.items?).mapM ToolDescriptor.ofJson?
  let temperature := match v.given? "temperature" with
    | some (.num n) => some n.toFloat
    | _ => none
  some ⟨← v.fieldString? "model", messages, temperature, (v.given? "max_tokens").bind Json.nat?, tools⟩

end Request

/-- What a model asks for instead of answering. -/
inductive Action where
  | call (tool input : String)
  | transfer (agent : String)
  deriving DecidableEq, Repr

def Action.toJson : Action → Json
  | call tool input => .obj [("type", .str "call"), ("tool", .str tool), ("input", .str input)]
  | transfer agent => .obj [("type", .str "transfer"), ("agent", .str agent)]

/-- The reply of a model. -/
structure Reply where
  content : String
  action : Option Action := none
  inputTokens : Nat := 0
  outputTokens : Nat := 0
  deriving DecidableEq, Repr

/-- Why a model did not reply. -/
inductive ModelError where
  | requestFailed (reason : String)
  deriving DecidableEq, Repr

def ModelError.message : ModelError → String
  | requestFailed reason => "API request failed: " ++ reason

end Workflow
