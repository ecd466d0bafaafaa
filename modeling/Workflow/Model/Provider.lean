import Workflow.Text.Case
import Workflow.Text.Part

/-!
Providers of models, as the names of models tell them.
-/

namespace Workflow

/-- A provider of models. -/
inductive Provider where
  | openai
  | anthropic
  | mock
  | other
  deriving DecidableEq, Repr

namespace Provider

def name : Provider → String
  | openai => "openai"
  | anthropic => "anthropic"
  | mock => "mock"
  | other => "other"

/-- The provider of a model: the part before the first slash, or else the start of a well-known name. -/
def ofModel (model : String) : Provider :=
  let text := model.toList
  let starts (word : String) : Bool := Text.startsWith text word.toList
  match String.ofList (Text.lower (text.takeWhile (· ≠ '/'))) with
  | "openai" => openai
  | "anthropic" => anthropic
  | "mock" => mock
  | _ =>
    if starts "gpt" || starts "o1" || starts "o3" then openai
    else if starts "claude" then anthropic
    else other

end Provider

end Workflow
