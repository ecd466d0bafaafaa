import Workflow.Json.Basic

/-!
Events that a run reports as it goes.
-/

namespace Workflow

/-- An event of a run. -/
inductive Event where
  | flowStarted (flow : String)
  | flowFinished (flow : String) (result : Json)
  | agentStarted (agent input : String)
  | modelOutput (agent text : String)
  | toolCall (agent tool input : String)
  | toolResult (agent tool output : String)
  | transfer (source target : String)
  | agentFinished (agent output : String)
  | agentClosed (agent : String) (asTool : Bool)
  | promptCalled (prompt model : String) (attempt : Nat)
  | escalated (source output : String)
  | guardrailWarning (event guardrail : String)
  | log (message : String)

def Event.toJson : Event → Json
  | flowStarted flow => .obj [("type", .str "flow_started"), ("flow", .str flow)]
  | flowFinished flow result => .obj [("type", .str "flow_finished"), ("flow", .str flow), ("result", result)]
  | agentStarted agent input => .obj [("type", .str "agent_started"), ("agent", .str agent), ("input", .str input)]
  | modelOutput agent text => .obj [("type", .str "model_output"), ("agent", .str agent), ("text", .str text)]
  | toolCall agent tool input =>
    .obj [("type", .str "tool_call"), ("agent", .str agent), ("tool", .str tool), ("input", .str input)]
  | toolResult agent tool output =>
    .obj [("type", .str "tool_result"), ("agent", .str agent), ("tool", .str tool), ("output", .str output)]
  | transfer source target => .obj [("type", .str "transfer"), ("from", .str source), ("to", .str target)]
  | agentFinished agent output =>
    .obj [("type", .str "agent_finished"), ("agent", .str agent), ("output", .str output)]
  | agentClosed agent asTool =>
    .obj [("type", .str "agent_closed"), ("agent", .str agent), ("as_tool", .bool asTool)]
  | promptCalled prompt model attempt =>
    .obj [("type", .str "llm_call"), ("prompt", .str prompt), ("model", .str model), ("attempt", .nat attempt)]
  | escalated source output => .obj [("type", .str "escalated"), ("source", .str source), ("output", .str output)]
  | guardrailWarning event guardrail =>
    .obj [("type", .str "guardrail_warning"), ("event", .str event), ("guardrail", .str guardrail)]
  | log message => .obj [("type", .str "log"), ("message", .str message)]

end Workflow
