import Workflow.Listing.Spec
import Workflow.Listing.Term

/-!
Operations of compiled programs. A registration stands for a definition, a header owns the block of
deeper lines that follow it, and everything else is a statement.
-/

namespace Workflow

/-- One branch of a parallel block. -/
structure ParallelCall where
  agent : String
  args : List Term
  target : Option String

/-- An operation. -/
inductive Op where
  | model (m : ModelSpec)
  | schema (s : SchemaSpec)
  | tool (t : ToolSpec)
  | retry (r : RetryPolicy)
  | timeout (t : TimeoutPolicy)
  | guardrail (g : GuardrailSpec)
  | prompt (p : PromptSpec)
  | agent (a : AgentSpec)
  | flow (name : String) (params : List String)
  | handler (event : HandlerEvent)
  | loop (max : Option Nat)
  | forEach (var : String) (iterable : Term)
  | branch (condition : Term)
  | otherwise
  | select (subject : Term)
  /-- A case of a match; the last one may have no pattern. -/
  | arm (pattern : Option Json)
  | onFailure
  | assign (target : String) (value : Term)
  | setPath (target : String) (path : List String) (value : Term)
  | runAgent (target : Option String) (agent : String) (args : List Term) (onEscalate : Option (EscalateAction Term))
  | callPrompt (target : Option String) (prompt : String) (args : List Term)
      (model : Option String) (onEscalate : Option (EscalateAction Term))
  | runFlow (target : Option String) (flow : String) (args : List Term)
  | parallel (calls : List ParallelCall)
  | ret (value : Term)
  | continue
  | abort (message : Option Term)
  | push (value : Term) (target : String)
  | log (message : Term)
  | guard (kind : GuardKind) (guardrail : String) (message : Option String)

namespace Op

def isHeader : Op → Bool
  | flow .. | handler _ | loop _ | forEach .. | branch _ | otherwise | select _ | arm _
  | onFailure => true
  | _ => false

/-- Whether an operation stands for a definition without a body. -/
def isRegistration : Op → Bool
  | model _ | schema _ | tool _ | retry _ | timeout _ | guardrail _ | prompt _ | agent _ => true
  | _ => false

def mnemonic : Op → String
  | model _ => "model"
  | schema _ => "schema"
  | tool _ => "tool"
  | retry _ => "retry"
  | timeout _ => "timeout"
  | guardrail _ => "guardrail"
  | prompt _ => "prompt"
  | agent _ => "agent"
  | flow .. => "flow"
  | handler _ => "handler"
  | loop _ => "loop"
  | forEach .. => "for"
  | branch _ => "if"
  | otherwise => "else"
  | select _ => "match"
  | arm _ => "arm"
  | onFailure => "on_failure"
  | assign .. => "set"
  | setPath .. => "set_path"
  | runAgent .. => "run_agent"
  | callPrompt .. => "call_llm"
  | runFlow .. => "run_flow"
  | parallel _ => "parallel"
  | ret _ => "return"
  | .continue => "continue"
  | abort _ => "abort"
  | push .. => "push"
  | log _ => "log"
  | guard .. => "guard"

def displayTarget : Option String → String
  | some name => "$" ++ name ++ " = "
  | none => ""

def displayArgs (args : List Term) : String :=
  args.foldl (fun text arg => text ++ ", " ++ arg.display) ""

def displayEscalate : Option (EscalateAction Term) → String
  | none => ""
  | some (.ret value) => " on_escalate return " ++ value.display
  | some .continue => " on_escalate continue"
  | some .abort => " on_escalate abort"

def setting (label : String) : Option String → String
  | some value => " " ++ label ++ "=" ++ value
  | none => ""

/-- A list of names, left out where it is empty. -/
def listSetting (label : String) : List String → String
  | [] => ""
  | names => " " ++ label ++ "=[" ++ ", ".intercalate names ++ "]"

def displayCall (c : ParallelCall) : String :=
  "(" ++ Json.quote c.agent ++ ", [" ++ ", ".intercalate (c.args.map Term.display) ++ "], "
    ++ (match c.target with
      | some name => "$" ++ name
      | none => "_") ++ ")"

def display : Op → String
  | model m => m.params.foldl (fun text (key, value) => text ++ " " ++ key ++ "=" ++ value.render)
      ("model " ++ m.name ++ " " ++ Json.quote m.model)
  | schema s => "schema " ++ s.name ++ " \x7b"
      ++ ", ".intercalate (s.fields.map SchemaField.display) ++ "\x7d"
  | tool t => "tool " ++ t.name ++ " " ++ t.kind.name ++ " " ++ Json.quote t.target
  | retry r => "retry " ++ r.name ++ " attempts=" ++ toString r.attempts ++ " backoff="
      ++ r.backoff.name
  | timeout t => "timeout " ++ t.name ++ " seconds=" ++ toString t.seconds
  | guardrail g => "guardrail " ++ g.name ++ " regex " ++ Json.quote g.pattern
  | prompt p => "prompt " ++ p.name ++ setting "model" p.model
      ++ setting "expecting" p.expecting
      ++ setting "escalate" (p.escalate.map fun c =>
        "(" ++ c.op.symbol ++ " " ++ Json.quote c.literal ++ ")")
      ++ " template=" ++ Json.quote p.template
  | agent a => "agent " ++ a.name ++ " instruction=" ++ a.instruction
      ++ listSetting "tools" a.tools ++ listSetting "delegate" a.delegate
      ++ listSetting "use" a.uses ++ setting "retry" a.retry ++ setting "timeout" a.timeout
      ++ setting "description" (a.description.map Json.quote)
  | flow name params => "flow " ++ name ++ "(" ++ ", ".intercalate (params.map ("$" ++ ·)) ++ "):"
  | handler event => "handler " ++ event.name ++ ":"
  | loop (some max) => "loop max=" ++ toString max ++ ":"
  | loop none => "loop:"
  | forEach var iterable => "for $" ++ var ++ " in " ++ iterable.display ++ ":"
  | branch condition => "if " ++ condition.display ++ ":"
  | otherwise => "else:"
  | select subject => "match " ++ subject.display ++ ":"
  | arm (some pattern) => "when " ++ pattern.render ++ ":"
  | arm none => "otherwise:"
  | onFailure => "on_failure:"
  | assign target value => "$" ++ target ++ " = " ++ value.display
  | setPath target path value => "set_path $" ++ target ++ " [" ++ ", ".intercalate path ++ "] = "
      ++ value.display
  | runAgent target name args onEscalate => displayTarget target ++ "run_agent("
      ++ Json.quote name ++ displayArgs args ++ ")" ++ displayEscalate onEscalate
  | callPrompt target name args override onEscalate => displayTarget target ++ "call_llm("
      ++ Json.quote name ++ displayArgs args
      ++ (match override with
        | some other => ", model=" ++ Json.quote other
        | none => "") ++ ")" ++ displayEscalate onEscalate
  | runFlow target name args => displayTarget target ++ "run_flow(" ++ Json.quote name
      ++ displayArgs args ++ ")"
  | parallel calls => "parallel [" ++ ", ".intercalate (calls.map displayCall) ++ "]"
  | ret value => "return " ++ value.display
  | .continue => "continue"
  | abort (some message) => "abort " ++ message.display
  | abort none => "abort"
  | push value target => "push " ++ value.display ++ " -> $" ++ target
  | log message => "log " ++ message.display
  | guard kind name message => "guard " ++ kind.name ++ " " ++ name
      ++ (match message with
        | some message => " " ++ Json.quote message
        | none => "")

end Op

end Workflow
