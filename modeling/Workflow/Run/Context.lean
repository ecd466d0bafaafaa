import Workflow.Run.Process
import Workflow.Run.Settings
import Workflow.Schema.Check
import Workflow.Value.Bindings

/-!
What a run has at hand: the compiled unit, settings and guardrails, and the globals that the start
handlers have set. Names are looked up here; a policy that is not defined is as good as none.
-/

namespace Workflow

/-- A compiled unit made ready to run. -/
structure Context where
  unit : CompiledUnit
  settings : Settings := {}
  guardrails : Guardrails := []
  /-- Source maps that are asked before the unit's own. -/
  registry : Registry := []
  deriving Inhabited

/-- A context in one run. -/
structure Scene extends Context where
  globals : Table Json := []

/-- A text on its way through a guardrail handler. -/
structure Guarded where
  event : HandlerEvent
  text : String
  /-- What to tell the model when another answer is wanted. -/
  retry : Option String := none
  deriving DecidableEq, Repr

/-- What passes texts through the handlers of an event. -/
abbrev Guard := HandlerEvent → String → Act Guarded

namespace Context

def ofUnit (unit : CompiledUnit) (settings : Settings) (config : GuardrailConfig) (registry : Registry) :
    Except RunFault Context := do
  let guardrails ← (Guardrails.ofSpecs config (unit.guardrails.map (·.2))).mapError .guardrail
  (unit.schemas.forM fun entry => entry.2.usable).mapError .schema
  .ok { unit := unit, settings := settings, guardrails := guardrails, registry := registry }

def entry {α : Type} (kind : String) (table : Table α) (name : String) : Except RunFault α :=
  match table.get? name with
  | some a => .ok a
  | none => .error (.undefined kind name)

def prompt (c : Context) (name : String) : Except RunFault PromptSpec := entry "prompt" c.unit.prompts name

/-- The model to use: the one asked for, or that of the prompt, or `main`, which needs no definition. -/
def model (c : Context) (requested declared : Option String) : Except RunFault ModelSpec :=
  let name := (requested <|> declared).getD "main"
  match c.unit.models.get? name with
  | some m => .ok m
  | none =>
    if name = "main" then .ok { name := "main", model := c.settings.defaultModel }
    else .error (.undefined "model" name)

def schema (c : Context) (p : PromptSpec) : Except RunFault (Option SchemaSpec) :=
  match p.expecting with
  | some name => (entry "schema" c.unit.schemas name).map some
  | none => .ok none

def retry? (c : Context) (name : Option String) : Option RetryPolicy := name.bind c.unit.retries.get?

def timeout? (c : Context) (name : Option String) : Option Duration :=
  match name.bind c.unit.timeouts.get? with
  | some policy => some policy.duration
  | none => c.settings.defaultTimeout

/-- How often a structured answer is asked for. -/
def attempts (c : Context) : Nat := max c.settings.schemaAttempts 1

def site (c : Context) (line : Nat) : Site :=
  ⟨line, c.registry.resolve c.unit.fileId line <|> c.unit.sourceMap.lookup line⟩

end Context

end Workflow
