import Workflow.Text.Numeral
import Workflow.Time

/-!
Settings of runs, with their defaults and the environment variables that change them.
-/

namespace Workflow

/-- Settings of runs. -/
structure Settings where
  /-- How many turns an agent has for its answer. -/
  maxTurns : Nat := 10
  /-- The limit for agents that name none. -/
  defaultTimeout : Option Duration := none
  /-- How often a structured answer is asked for. -/
  schemaAttempts : Nat := 3
  /-- The delay that retry policies start from. -/
  retryBase : Duration := .ofMillis 500
  /-- The model of workflows that define no model `main`. -/
  defaultModel : String := "mock/default"
  deriving DecidableEq, Repr, Inhabited

namespace Settings

def withMaxTurns (s : Settings) (turns : Nat) : Settings := { s with maxTurns := max turns 1 }

def toJson (s : Settings) : Json :=
  .obj [("max_turns", .nat s.maxTurns), ("default_timeout_ms", Json.orNull (fun d => .nat (Duration.millis d)) s.defaultTimeout),
    ("schema_attempts", .nat s.schemaAttempts), ("retry_base_ms", .nat (Duration.millis s.retryBase)),
    ("default_model", .str s.defaultModel)]

/-- The number in a variable, if it is one and does not exceed a bound. -/
def number? (env : Table String) (name : String) (bound : Nat) : Option Nat :=
  (env.get? name).bind fun v => Text.unsigned? bound (Text.trim v.toList)

/-- The settings, changed by the variables `WEAVE_MAX_TURNS`, `WEAVE_DEFAULT_TIMEOUT_SECS`,
`WEAVE_RETRY_BASE_MS` and `WEAVE_DEFAULT_MODEL`. -/
def ofEnvironment (env : Table String) : Settings :=
  let s : Settings := {}
  let s := match number? env "WEAVE_MAX_TURNS" 0xffffffff with
    | some n => s.withMaxTurns n
    | none => s
  let s := match number? env "WEAVE_DEFAULT_TIMEOUT_SECS" 0xffffffffffffffff with
    | some n => { s with defaultTimeout := if n = 0 then none else some (.ofSeconds n) }
    | none => s
  let s := match number? env "WEAVE_RETRY_BASE_MS" 0xffffffffffffffff with
    | some n => { s with retryBase := .ofMillis n }
    | none => s
  match (env.get? "WEAVE_DEFAULT_MODEL").map fun v => Text.trim v.toList with
  | some (c :: rest) => { s with defaultModel := String.ofList (c :: rest) }
  | _ => s

end Settings

end Workflow
