import Workflow.Guardrail
import Workflow.Listing.SourceMap
import Workflow.Model.Request
import Workflow.Schema.Extract
import Workflow.Time
import Workflow.Value.Basic

/-!
Errors of runs. A fault is what went wrong; the error adds the statement it went wrong in, which is
the innermost one and stays the same on the way out. Aborts end a run, all other faults can be
handled by an `on failure` block.
-/

namespace Workflow

/-- What went wrong in a run. -/
inductive RunFault where
  | value (e : ValueError)
  | model (e : ModelError)
  | guardrail (e : GuardrailError)
  | schema (e : SchemaError)
  | undefined (kind name : String)
  | arity (flow : String) (expected given : Nat)
  | unstructured (prompt schema : String) (attempts : Nat) (reason : String)
  | blocked (event : HandlerEvent) (guardrail : String)
  | aborted (message : String)
  | escalated (name : String)
  | timeout (agent : String) (limit : Duration)
  | turnLimit (agent : String) (turns : Nat)
  | misplaced (action : String)
  deriving DecidableEq, Repr

namespace RunFault

def message : RunFault → String
  | value e => e.message
  | model e => "model request failed: " ++ e.message
  | guardrail e => e.message
  | schema e => e.message
  | undefined kind name => "undefined " ++ kind ++ " '" ++ name ++ "'"
  | arity flow expected given => "flow '" ++ flow ++ "' takes " ++ toString expected ++ " argument(s) but "
      ++ toString given ++ " were given"
  | unstructured prompt shape attempts reason => "prompt '" ++ prompt ++ "' did not produce a valid " ++ shape
      ++ " after " ++ toString attempts ++ " attempt(s): " ++ reason
  | blocked event rail => "guardrail '" ++ rail ++ "' blocked the " ++ event.name
  | aborted message => "aborted: " ++ message
  | escalated name => "'" ++ name ++ "' escalated and the run was aborted"
  | timeout agent limit => "agent '" ++ agent ++ "' timed out after " ++ limit.display
  | turnLimit agent turns => "agent '" ++ agent ++ "' gave no final answer within " ++ toString turns ++ " turn(s)"
  | misplaced action => "'" ++ action ++ "' is not valid in this context"

def kind : RunFault → String
  | value _ => "value"
  | model _ => "model"
  | guardrail _ => "guardrail"
  | schema _ | unstructured .. => "schema"
  | undefined .. => "undefined"
  | arity .. => "arity"
  | blocked .. => "blocked"
  | aborted _ => "aborted"
  | escalated _ => "escalated"
  | timeout .. => "timeout"
  | turnLimit .. => "turn_limit"
  | misplaced _ => "misplaced"

def isFatal : RunFault → Bool
  | aborted _ | escalated _ => true
  | _ => false

end RunFault

/-- The statement an error arose in: its line in the listing, and its place in the source. -/
structure Site where
  line : Nat
  place : Option Place
  deriving DecidableEq, Repr

def Site.display (s : Site) : String :=
  match s.place with
  | some p => p.display
  | none => "generated line " ++ toString s.line

/-- An error of a run. -/
structure RunError where
  fault : RunFault
  site : Option Site := none
  deriving DecidableEq, Repr

namespace RunError

def message (e : RunError) : String :=
  match e.site with
  | some s => e.fault.message ++ " (at " ++ s.display ++ ")"
  | none => e.fault.message

def place? (e : RunError) : Option Place := e.site.bind (·.place)

/-- Says where the error arose, unless that is known. -/
def located (e : RunError) (s : Site) : RunError :=
  match e.site with
  | some _ => e
  | none => { e with site := some s }

def toValue (e : RunError) : Json :=
  .obj [("kind", .str e.fault.kind), ("line", Json.orNull (fun p => .nat p.line) e.place?),
    ("location", Json.orNull (fun p => .str p.display) e.place?), ("message", .str e.fault.message)]

def toJson (e : RunError) : Json :=
  .obj [("error", .str e.fault.kind), ("message", .str e.message), ("root", .str e.fault.message),
    ("fatal", .bool e.fault.isFatal), ("generated_line", Json.orNull (fun s => .nat s.line) e.site),
    ("position", Json.orNull Place.toJson e.place?)]

end RunError

end Workflow
