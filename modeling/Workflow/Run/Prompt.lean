import Workflow.Prompt.Escalation
import Workflow.Prompt.Template
import Workflow.Run.Context

/-!
Calls of prompts: a conversation of one question, which is asked again when an output handler or the
schema rejects the answer. Every attempt adds the rejected answer and what is wrong with it.
-/

namespace Workflow

def joinArgs (args : List Json) : String := "\n".intercalate (args.map Json.plainText)

/-- What a model is told about an answer that the schema rejects. -/
def SchemaError.correction (e : SchemaError) : String :=
  "Your previous reply was rejected: " ++ e.message ++ ". Reply again with only the JSON object."

namespace Context

/-- Asks a model up to so many times more; between two times it waits as the policy says. -/
def completeFrom (c : Context) (policy : RetryPolicy) (r : Request) (attempt : Nat) : Nat → Act Reply
  | 0 => do
    match ← Process.request r with
    | .ok reply => pure reply
    | .error e => Act.fail (.model e)
  | left + 1 => do
    match ← Process.request r with
    | .ok reply => pure reply
    | .error _ =>
      Process.wait (policy.delay attempt c.settings.retryBase)
      completeFrom c policy r (attempt + 1) left

def complete (c : Context) (policy : Option RetryPolicy) (r : Request) : Act Reply :=
  match policy with
  | some p => c.completeFrom p r 1 (p.attempts - 1)
  | none => c.completeFrom default r 1 0

def request (m : ModelSpec) (messages : List Message) (tools : List ToolDescriptor) : Request :=
  ⟨m.model, messages, m.temperature, m.maxTokens, tools⟩

def escalates (p : PromptSpec) (source text : String) : Process Bool := do
  match p.escalate with
  | some condition =>
    if condition.isMet text then
      Process.emit (.escalated source text)
      pure true
    else pure false
  | none => pure false

def valueOf (schema : Option SchemaSpec) (text : String) : Except SchemaError Json :=
  match schema with
  | none => .ok (.str text)
  | some s => s.parse text

def withInstruction (schema : Option SchemaSpec) (text : String) : String :=
  match schema with
  | some s => text ++ "\n\n" ++ s.instruction
  | none => text

/-- The question of a prompt. An input that the template does not mention is put below it. -/
def question (p : PromptSpec) (schema : Option SchemaSpec) (args : List Json) (bindings : Table Json) : String :=
  let input := joinArgs args
  let bindings := if args.isEmpty then bindings else bindings.insert "input" (.str input)
  let text := (Template.render p.template bindings).text
  let text := if args.isEmpty || Template.mentions p.template "input" then text else text ++ "\n\n" ++ input
  withInstruction schema text

/-- The attempts of a prompt, of which so many are left; `reason` is what was wrong last. -/
def askFrom (c : Context) (guard : Guard) (p : PromptSpec) (m : ModelSpec) (schema : Option SchemaSpec)
    (attempt : Nat) (reason : String) (messages : List Message) : Nat → Act Answer
  | 0 => Act.fail (.unstructured p.name ((schema.map (·.name)).getD "") c.attempts reason)
  | left + 1 => do
    Process.emit (.promptCalled p.name m.model attempt)
    let reply ← c.complete none (request m messages [])
    let guarded ← guard .output reply.content
    let again (reason : String) (feedback : String) : Act Answer :=
      c.askFrom guard p m schema (attempt + 1) reason (messages ++ [.assistant guarded.text, .user feedback]) left
    match guarded.retry, left with
    | some feedback, _ + 1 => again reason feedback
    | _, _ =>
      match valueOf schema guarded.text with
      | .error e => again e.message e.correction
      | .ok value =>
        let escalated ← escalates p p.name guarded.text
        pure ⟨value, guarded.text, escalated⟩

def callPrompt (c : Context) (guard : Guard) (name : String) (args : List Json) (model : Option String)
    (bindings : Table Json) : Act Answer := do
  let p ← Act.ofExcept (c.prompt name)
  let m ← Act.ofExcept (c.model model p.model)
  let schema ← Act.ofExcept (c.schema p)
  c.askFrom guard p m schema 1 "" [.user (question p schema args bindings)] c.attempts

end Context

end Workflow
