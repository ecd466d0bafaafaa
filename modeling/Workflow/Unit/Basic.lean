import Workflow.Listing.Json
import Workflow.Listing.SourceMap

/-!
Compiled units: tables of registrations, and flows and handlers as trees of instructions.
-/

namespace Workflow

/-- An instruction: its line in the listing, its operation, and the block it owns. -/
inductive Instr where
  | mk (line : Nat) (op : Op) (body : List Instr)

namespace Instr

def line : Instr → Nat
  | mk line _ _ => line

def op : Instr → Op
  | mk _ op _ => op

def body : Instr → List Instr
  | mk _ _ body => body

mutual

def toJson : Instr → Json
  | mk line op [] => .obj [("line", .nat line), ("op", op.toJson)]
  | mk line op (first :: rest) => .obj [("line", .nat line), ("op", op.toJson),
      ("body", .arr (first.toJson :: blockJson rest))]

def blockJson : List Instr → List Json
  | [] => []
  | i :: rest => i.toJson :: blockJson rest

end

end Instr

structure FlowUnit where
  name : String
  params : List String
  line : Nat
  body : List Instr
  /-- What is done when the body fails. -/
  onFailure : Option (List Instr) := none

def FlowUnit.toJson (f : FlowUnit) : Json :=
  .obj ([("name", .str f.name), ("params", .strs f.params), ("line", .nat f.line),
    ("body", .arr (Instr.blockJson f.body))]
    ++ f.onFailure.toList.map fun block => ("on_failure", .arr (Instr.blockJson block)))

/-- Numbers of definitions. -/
structure UnitStats where
  models : Nat := 0
  agents : Nat := 0
  flows : Nat := 0
  handlers : Nat := 0
  deriving DecidableEq, Repr

def UnitStats.toJson (s : UnitStats) : Json :=
  .obj [("models", .nat s.models), ("agents", .nat s.agents), ("flows", .nat s.flows),
    ("handlers", .nat s.handlers)]

/-- A compiled program. -/
structure CompiledUnit where
  models : Table ModelSpec := []
  schemas : Table SchemaSpec := []
  tools : Table ToolSpec := []
  retries : Table RetryPolicy := []
  timeouts : Table TimeoutPolicy := []
  guardrails : Table GuardrailSpec := []
  prompts : Table PromptSpec := []
  agents : Table AgentSpec := []
  flows : Table FlowUnit := []
  /-- Instructions of the handlers of each event that has one. -/
  handlers : List (HandlerEvent × List Instr) := []
  hash : String
  listing : Listing
  sourceMap : SourceMap
  deriving Inhabited

namespace CompiledUnit

def fileId (u : CompiledUnit) : String := u.sourceMap.generatedFile

def sourceName (u : CompiledUnit) : String := u.sourceMap.sourceFile

def handler? (u : CompiledUnit) (event : HandlerEvent) : Option (List Instr) :=
  (u.handlers.find? (·.1 = event)).map (·.2)

/-- Numbers of definitions; handlers of one event count once. -/
def stats (u : CompiledUnit) : UnitStats :=
  ⟨u.models.length, u.agents.length, u.flows.length, u.handlers.length⟩

def tablesJson (u : CompiledUnit) : Json :=
  let table {α : Type} (t : Table α) (encode : α → Json) : Json :=
    .obj (t.map fun e => (e.1, encode e.2))
  .obj [("models", table u.models fun m => .record m.fields),
    ("schemas", table u.schemas fun s => .record s.fieldsJson),
    ("tools", table u.tools fun t => .record t.fields),
    ("retries", table u.retries fun r => .record r.fields),
    ("timeouts", table u.timeouts fun t => .record t.fields),
    ("guardrails", table u.guardrails fun g => .record g.fields),
    ("prompts", table u.prompts fun p => .record p.fields),
    ("agents", table u.agents fun a => .record a.fields),
    ("flows", table u.flows FlowUnit.toJson),
    ("handlers", .obj (u.handlers.map fun h => (h.1.name, .arr (Instr.blockJson h.2)))),
    ("default_agent", Json.orNull (fun a => .str a.instruction) (u.agents.get? "default"))]

end CompiledUnit

end Workflow
