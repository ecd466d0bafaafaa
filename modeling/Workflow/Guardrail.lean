import Workflow.Listing.Spec
import Workflow.Pattern.Compile
import Workflow.Text.Part
import Workflow.Text.Upper

/-!
Guardrails: named sets of patterns. A text trips a guardrail when one of its patterns is found in
it, and masking puts the guardrail's mark in place of all that the patterns find, one pattern after
the other. The guardrails `pii` and `jailbreak` are always there; a workflow may define others, and
may define these two anew.
-/

namespace Workflow

open Pattern (Regex CharClass)

/-- What can be set about guardrails. -/
structure GuardrailConfig where
  /-- Phrases that the guardrail `jailbreak` finds in any case. -/
  jailbreakPhrases : List String := ["ignore previous instructions", "ignore all previous",
    "forget everything above", "reveal your system prompt", "jailbreak", "DAN mode", "developer mode",
    "pretend you are", "roleplay as"]
  /-- The mark of a guardrail, with `name` in braces for its name in upper case. -/
  maskTemplate : String := "[\x7bname\x7d]"

/-- Why a guardrail cannot be used. -/
inductive GuardrailError where
  | unknown (name : String)
  | invalidPattern (name : String) (reason : String)
  deriving DecidableEq, Repr

def GuardrailError.message : GuardrailError → String
  | unknown name => "undefined guardrail '" ++ name ++ "'"
  | invalidPattern name reason => "guardrail '" ++ name ++ "' has an invalid pattern: " ++ reason

/-- A guardrail. -/
structure Guardrail where
  patterns : List Regex
  mark : String

namespace Guardrail

def check (g : Guardrail) (text : String) : Bool := g.patterns.any fun p => p.isMatch text

/-- The text with the mark in place of what the patterns find. -/
def mask (g : Guardrail) (text : String) : String :=
  g.patterns.foldl (fun text p => p.replaceAll text g.mark) text

def markOf (config : GuardrailConfig) (name : String) : String :=
  String.ofList (Text.replacePart "\x7bname\x7d".toList (Text.upper name.toList) config.maskTemplate.toList)

def phrase (text : String) : Regex :=
  text.toList.foldr (fun c rest => .cat (.chars (.folded (.set (.range c.toNat c.toNat)))) rest) .empty

/-- Patterns for mail addresses and for social security, card and phone numbers. -/
def personalData : List String := ["[A-Za-z0-9._%+-]+@[A-Za-z0-9.-]+\\.[A-Za-z]\x7b2,\x7d",
  "\\b\\d\x7b3\x7d-\\d\x7b2\x7d-\\d\x7b4\x7d\\b",
  "\\b(?:\\d[ -]?)\x7b13,16\x7d\\b",
  "(?:\\+?\\d\x7b1,3\x7d[ .-]?)?\\(?\\b\\d\x7b3\x7d\\)?[ .-]?\\d\x7b3\x7d[ .-]?\\d\x7b4\x7d\\b"]

end Guardrail

abbrev Guardrails := Table Guardrail

namespace Guardrails

def compile (name pattern : String) : Except GuardrailError Regex :=
  match Pattern.compile pattern with
  | .ok r => .ok r
  | .error fault => .error (.invalidPattern name fault.reason)

def builtin (config : GuardrailConfig) : Except GuardrailError Guardrails := do
  let patterns ← Guardrail.personalData.mapM (compile "pii")
  .ok (Table.ofList [("pii", ⟨patterns, Guardrail.markOf config "pii"⟩),
    ("jailbreak", ⟨config.jailbreakPhrases.map Guardrail.phrase, Guardrail.markOf config "jailbreak"⟩)])

def define (config : GuardrailConfig) (known : Guardrails) (spec : GuardrailSpec) :
    Except GuardrailError Guardrails := do
  let pattern ← compile spec.name spec.pattern
  .ok (known.insert spec.name ⟨[pattern], Guardrail.markOf config spec.name⟩)

/-- The guardrails of a workflow with these definitions. -/
def ofSpecs (config : GuardrailConfig) (specs : List GuardrailSpec) : Except GuardrailError Guardrails := do
  specs.foldlM (define config) (← builtin config)

def find (known : Guardrails) (name : String) : Except GuardrailError Guardrail :=
  match known.get? name with
  | some g => .ok g
  | none => .error (.unknown name)

def check (known : Guardrails) (name text : String) : Except GuardrailError Bool := do
  .ok ((← known.find name).check text)

def mask (known : Guardrails) (name text : String) : Except GuardrailError String := do
  .ok ((← known.find name).mask text)

end Guardrails

end Workflow
