import Workflow.Listing.Basic

/-!
Listings as JSON. Alternatives name themselves in a field, what is not there is `null` or left out,
and what was left out reads as not there.
-/

namespace Workflow

namespace Json

/-- An object whose fields that are `none` are left out. -/
def record (fields : List (String × Option Json)) : Json :=
  .obj (fields.filterMap fun f => f.2.map fun v => (f.1, v))

/-- A list of names that is left out where it is empty. -/
def nonempty : List String → Option Json
  | [] => none
  | names => some (strs names)

def fieldString? (v : Json) (name : String) : Option String := (v.field? name).bind string?

def fieldStringOrNone? (v : Json) (name : String) : Option (Option String) :=
  match v.given? name with
  | none => some none
  | some w => w.string?.map some

/-- A list of texts; a field that is missing is empty. -/
def fieldStringsOrNil? (v : Json) (name : String) : Option (List String) :=
  match v.given? name with
  | none => some []
  | some w => w.strings?

theorem sizeOf_mem_fields {fields : List (String × Json)} {f : String × Json} (h : f ∈ fields) :
    sizeOf f.2 < sizeOf (obj fields) := by
  have h₁ := List.sizeOf_lt_of_mem h
  have h₂ : sizeOf f = 1 + sizeOf f.1 + sizeOf f.2 := by cases f; rfl
  simp only [obj.sizeOf_spec]
  omega

theorem sizeOf_mem_items {items : List Json} {v : Json} (h : v ∈ items) : sizeOf v < sizeOf (arr items) := by
  have := List.sizeOf_lt_of_mem h
  simp only [arr.sizeOf_spec]
  omega

/-- A field of an object, which is smaller than the object. -/
def child? (v : Json) (name : String) : Option { w : Json // sizeOf w < sizeOf v } :=
  match v with
  | obj fields =>
    match h : fields.reverse.find? fun f => f.1 = name with
    | some f => some ⟨f.2, sizeOf_mem_fields (List.mem_reverse.mp (List.mem_of_find?_eq_some h))⟩
    | none => none
  | _ => none

/-- The items of a list, each smaller than the list. -/
def children? (v : Json) : Option (List { w : Json // sizeOf w < sizeOf v }) :=
  match v with
  | arr items => some (items.attach.map fun w => ⟨w.1, sizeOf_mem_items w.2⟩)
  | _ => none

end Json

/-! ### Small vocabularies -/

def ofName? {α : Type} (all : List α) (name : α → String) (v : Json) : Option α :=
  v.string?.bind fun s => all.find? fun a => name a = s

def ToolKind.ofJson? : Json → Option ToolKind := ofName? [.builtin, .mcp] ToolKind.name

def Backoff.ofJson? : Json → Option Backoff := ofName? [.fixed, .linear, .exponential] Backoff.name

def EscalationOp.ofJson? : Json → Option EscalationOp :=
  ofName? [.equals, .similar, .notEquals, .contains] EscalationOp.name

def HandlerEvent.ofJson? : Json → Option HandlerEvent := ofName? HandlerEvent.all HandlerEvent.name

def GuardKind.ofJson? : Json → Option GuardKind :=
  ofName? [.mask, .block, .warn, .retry] GuardKind.name

def BinOp.ofJson? : Json → Option BinOp := ofName? BinOp.all BinOp.name

/-! ### Terms -/

namespace Term

mutual

def toJson : Term → Json
  | literal value => .obj [("kind", .str "literal"), ("value", value)]
  | var name => .obj [("kind", .str "var"), ("name", .str name)]
  | path name keys => .obj [("kind", .str "path"), ("name", .str name), ("path", .strs keys)]
  | list items => .obj [("kind", .str "list"), ("items", .arr (itemsJson items))]
  | map entries => .obj [("kind", .str "map"), ("entries", .arr (entriesJson entries))]
  | binary op left right => .obj [("kind", .str "binary"), ("op", .str op.name),
      ("left", left.toJson), ("right", right.toJson)]
  | not operand => .obj [("kind", .str "not"), ("operand", operand.toJson)]
  | filter items keys op value => .obj [("kind", .str "filter"), ("list", items.toJson),
      ("path", .strs keys), ("op", .str op.name), ("value", value.toJson)]

def itemsJson : List Term → List Json
  | [] => []
  | t :: rest => t.toJson :: itemsJson rest

def entriesJson : List (String × Term) → List Json
  | [] => []
  | (key, t) :: rest => .arr [.str key, t.toJson] :: entriesJson rest

end

def ofJson? (v : Json) : Option Term := do
  let kind ← v.fieldString? "kind"
  match kind with
  | "literal" => do pure (literal (← v.field? "value"))
  | "var" => do pure (var (← v.fieldString? "name"))
  | "path" => do pure (path (← v.fieldString? "name") (← (v.field? "path").bind Json.strings?))
  | "list" => do
    let ⟨items, h⟩ ← v.child? "items"
    let items ← items.children?
    let items ← items.mapM fun ⟨w, hw⟩ =>
      have : sizeOf w < sizeOf v := Nat.lt_trans hw h
      ofJson? w
    pure (list items)
  | "map" => do
    let ⟨entries, h⟩ ← v.child? "entries"
    let entries ← entries.children?
    let entries ← entries.mapM fun ⟨entry, he⟩ => do
      let pair ← entry.children?
      match pair with
      | [⟨key, _⟩, ⟨value, hv⟩] => do
        let key ← key.string?
        have : sizeOf value < sizeOf v := Nat.lt_trans hv (Nat.lt_trans he h)
        let value ← ofJson? value
        pure (key, value)
      | _ => none
    pure (map entries)
  | "binary" => do
    let op ← (v.field? "op").bind BinOp.ofJson?
    let ⟨left, _⟩ ← v.child? "left"
    let left ← ofJson? left
    let ⟨right, _⟩ ← v.child? "right"
    let right ← ofJson? right
    pure (binary op left right)
  | "not" => do
    let ⟨operand, _⟩ ← v.child? "operand"
    let operand ← ofJson? operand
    pure (not operand)
  | "filter" => do
    let ⟨items, _⟩ ← v.child? "list"
    let items ← ofJson? items
    let keys ← (v.field? "path").bind Json.strings?
    let op ← (v.field? "op").bind BinOp.ofJson?
    let ⟨value, _⟩ ← v.child? "value"
    let value ← ofJson? value
    pure (filter items keys op value)
  | _ => none
termination_by sizeOf v
decreasing_by all_goals assumption

def listOfJson? (v : Json) : Option (List Term) := do (← v.items?).mapM ofJson?

def escalateJson : EscalateAction Term → Json
  | .ret value => .obj [("action", .str "return"), ("value", value.toJson)]
  | .continue => .obj [("action", .str "continue")]
  | .abort => .obj [("action", .str "abort")]

def escalateOfJson? (v : Json) : Option (EscalateAction Term) := do
  match ← v.fieldString? "action" with
  | "return" => do pure (.ret (← (v.field? "value").bind ofJson?))
  | "continue" => some .continue
  | "abort" => some .abort
  | _ => none

end Term

/-! ### Registrations -/

namespace FieldType

def toJson : FieldType → Json
  | list element => .obj [("list", element.toJson)]
  | type => .str type.display

def ofJson? : Json → Option FieldType
  | .str s => ofName? s
  | .obj [("list", v)] => (ofJson? v).map list
  | _ => none

end FieldType

def SchemaField.toJson (f : SchemaField) : Json :=
  .obj [("name", .str f.name), ("ty", f.type.toJson), ("optional", .bool f.optional)]

def SchemaField.ofJson? (v : Json) : Option SchemaField := do
  let name ← v.fieldString? "name"
  let type ← (v.field? "ty").bind FieldType.ofJson?
  pure ⟨name, type, ((v.field? "optional").bind Json.bool?).getD false⟩

def ModelSpec.fields (m : ModelSpec) : List (String × Option Json) :=
  [("name", some (.str m.name)), ("model", some (.str m.model)),
    ("params", if m.params.isEmpty then none else some (.obj m.params))]

def ModelSpec.ofJson? (v : Json) : Option ModelSpec := do
  let name ← v.fieldString? "name"
  let model ← v.fieldString? "model"
  let params := ((v.given? "params").bind Json.fields?).getD []
  pure ⟨name, model, .ofList params⟩

def SchemaSpec.fieldsJson (s : SchemaSpec) : List (String × Option Json) :=
  [("name", some (.str s.name)), ("fields", some (.arr (s.fields.map SchemaField.toJson)))]

def SchemaSpec.ofJson? (v : Json) : Option SchemaSpec := do
  let name ← v.fieldString? "name"
  let items ← (v.field? "fields").bind Json.items?
  pure ⟨name, ← items.mapM SchemaField.ofJson?⟩

def ToolSpec.fields (t : ToolSpec) : List (String × Option Json) :=
  [("name", some (.str t.name)), ("kind", some (.str t.kind.name)),
    ("target", some (.str t.target))]

def ToolSpec.ofJson? (v : Json) : Option ToolSpec := do
  let name ← v.fieldString? "name"
  let kind ← (v.field? "kind").bind ToolKind.ofJson?
  pure ⟨name, kind, ← v.fieldString? "target"⟩

def RetryPolicy.fields (r : RetryPolicy) : List (String × Option Json) :=
  [("name", some (.str r.name)), ("attempts", some (.nat r.attempts)),
    ("backoff", some (.str r.backoff.name))]

def RetryPolicy.ofJson? (v : Json) : Option RetryPolicy := do
  let name ← v.fieldString? "name"
  let attempts ← (v.field? "attempts").bind Json.nat?
  pure ⟨name, attempts, ← (v.field? "backoff").bind Backoff.ofJson?⟩

def TimeoutPolicy.fields (t : TimeoutPolicy) : List (String × Option Json) :=
  [("name", some (.str t.name)), ("seconds", some (.nat t.seconds))]

def TimeoutPolicy.ofJson? (v : Json) : Option TimeoutPolicy := do
  let name ← v.fieldString? "name"
  pure ⟨name, ← (v.field? "seconds").bind Json.nat?⟩

def GuardrailSpec.fields (g : GuardrailSpec) : List (String × Option Json) :=
  [("name", some (.str g.name)), ("pattern", some (.str g.pattern))]

def GuardrailSpec.ofJson? (v : Json) : Option GuardrailSpec := do
  let name ← v.fieldString? "name"
  pure ⟨name, ← v.fieldString? "pattern"⟩

def EscalationCondition.toJson (c : EscalationCondition) : Json :=
  .obj [("op", .str c.op.name), ("literal", .str c.literal)]

def EscalationCondition.ofJson? (v : Json) : Option EscalationCondition := do
  let op ← (v.field? "op").bind EscalationOp.ofJson?
  pure ⟨op, ← v.fieldString? "literal"⟩

def PromptSpec.fields (p : PromptSpec) : List (String × Option Json) :=
  [("name", some (.str p.name)), ("template", some (.str p.template)),
    ("model", p.model.map .str), ("expecting", p.expecting.map .str),
    ("escalate", p.escalate.map EscalationCondition.toJson)]

def PromptSpec.ofJson? (v : Json) : Option PromptSpec := do
  let name ← v.fieldString? "name"
  let template ← v.fieldString? "template"
  let model ← v.fieldStringOrNone? "model"
  let expecting ← v.fieldStringOrNone? "expecting"
  let escalate ← match v.given? "escalate" with
    | none => some none
    | some c => (EscalationCondition.ofJson? c).map some
  pure ⟨name, template, model, expecting, escalate⟩

def AgentSpec.fields (a : AgentSpec) : List (String × Option Json) :=
  [("name", some (.str a.name)), ("instruction", some (.str a.instruction)),
    ("tools", Json.nonempty a.tools), ("description", a.description.map .str),
    ("retry", a.retry.map .str), ("timeout", a.timeout.map .str),
    ("delegate", Json.nonempty a.delegate), ("uses", Json.nonempty a.uses)]

def AgentSpec.ofJson? (v : Json) : Option AgentSpec := do
  let name ← v.fieldString? "name"
  let instruction ← v.fieldString? "instruction"
  let tools ← v.fieldStringsOrNil? "tools"
  let description ← v.fieldStringOrNone? "description"
  let retry ← v.fieldStringOrNone? "retry"
  let timeout ← v.fieldStringOrNone? "timeout"
  let delegate ← v.fieldStringsOrNil? "delegate"
  let uses ← v.fieldStringsOrNil? "uses"
  pure ⟨name, instruction, tools, description, retry, timeout, delegate, uses⟩

/-! ### Operations -/

def ParallelCall.toJson (c : ParallelCall) : Json :=
  .obj [("agent", .str c.agent), ("args", .arr (Term.itemsJson c.args)),
    ("target", Json.orNull .str c.target)]

def ParallelCall.ofJson? (v : Json) : Option ParallelCall := do
  let agent ← v.fieldString? "agent"
  let args ← (v.field? "args").bind Term.listOfJson?
  pure ⟨agent, args, ← v.fieldStringOrNone? "target"⟩

namespace Op

def parts : Op → String × List (String × Option Json)
  | model m => ("model", m.fields)
  | schema s => ("schema", s.fieldsJson)
  | tool t => ("tool", t.fields)
  | retry r => ("retry", r.fields)
  | timeout t => ("timeout", t.fields)
  | guardrail g => ("guardrail", g.fields)
  | prompt p => ("prompt", p.fields)
  | agent a => ("agent", a.fields)
  | flow name params => ("flow", [("name", some (.str name)), ("params", some (.strs params))])
  | handler event => ("handler", [("event", some (.str event.name))])
  | loop max => ("loop", [("max", some (Json.orNull .nat max))])
  | forEach var iterable =>
    ("for_each", [("var", some (.str var)), ("iterable", some iterable.toJson)])
  | branch condition => ("if", [("condition", some condition.toJson)])
  | otherwise => ("else", [])
  | select subject => ("match", [("subject", some subject.toJson)])
  | arm pattern => ("arm", [("pattern", some (pattern.getD .null))])
  | onFailure => ("on_failure", [])
  | assign target value =>
    ("assign", [("target", some (.str target)), ("value", some value.toJson)])
  | setPath target path value => ("set_path", [("target", some (.str target)),
      ("path", some (.strs path)), ("value", some value.toJson)])
  | runAgent target name args onEscalate => ("run_agent",
      [("target", some (Json.orNull .str target)), ("agent", some (.str name)),
        ("args", some (.arr (Term.itemsJson args))),
        ("on_escalate", some (Json.orNull Term.escalateJson onEscalate))])
  | callPrompt target name args override onEscalate => ("call_llm",
      [("target", some (Json.orNull .str target)), ("prompt", some (.str name)),
        ("args", some (.arr (Term.itemsJson args))), ("model", some (Json.orNull .str override)),
        ("on_escalate", some (Json.orNull Term.escalateJson onEscalate))])
  | runFlow target name args => ("run_flow",
      [("target", some (Json.orNull .str target)), ("flow", some (.str name)),
        ("args", some (.arr (Term.itemsJson args)))])
  | parallel calls => ("parallel", [("calls", some (.arr (calls.map ParallelCall.toJson)))])
  | ret value => ("return", [("value", some value.toJson)])
  | .continue => ("continue", [])
  | abort message => ("abort", [("message", some (Json.orNull Term.toJson message))])
  | push value target => ("push", [("value", some value.toJson), ("target", some (.str target))])
  | log message => ("log", [("message", some message.toJson)])
  | guard kind name message => ("guard", [("kind", some (.str kind.name)),
      ("guardrail", some (.str name)), ("message", some (Json.orNull .str message))])

def toJson (o : Op) : Json := Json.record (("op", some (.str o.parts.1)) :: o.parts.2)

def termField? (v : Json) (name : String) : Option Term := (v.field? name).bind Term.ofJson?

def termsField? (v : Json) (name : String) : Option (List Term) :=
  (v.field? name).bind Term.listOfJson?

/-- What happens on an escalation, if anything is said. -/
def escalateField? (v : Json) : Option (Option (EscalateAction Term)) :=
  match v.given? "on_escalate" with
  | none => some none
  | some w => (Term.escalateOfJson? w).map some

def statementOfJson? (v : Json) : String → Option Op
  | "assign" => do pure (assign (← v.fieldString? "target") (← termField? v "value"))
  | "set_path" => do
    pure (setPath (← v.fieldString? "target") (← (v.field? "path").bind Json.strings?)
      (← termField? v "value"))
  | "run_agent" => do
    pure (runAgent (← v.fieldStringOrNone? "target") (← v.fieldString? "agent")
      (← termsField? v "args") (← escalateField? v))
  | "call_llm" => do
    pure (callPrompt (← v.fieldStringOrNone? "target") (← v.fieldString? "prompt")
      (← termsField? v "args") (← v.fieldStringOrNone? "model") (← escalateField? v))
  | "run_flow" => do
    pure (runFlow (← v.fieldStringOrNone? "target") (← v.fieldString? "flow")
      (← termsField? v "args"))
  | "parallel" => do
    pure (parallel (← (← (v.field? "calls").bind Json.items?).mapM ParallelCall.ofJson?))
  | "return" => do pure (ret (← termField? v "value"))
  | "continue" => some .continue
  | "abort" =>
    match v.given? "message" with
    | none => some (abort none)
    | some w => (Term.ofJson? w).map fun t => abort (some t)
  | "push" => do pure (push (← termField? v "value") (← v.fieldString? "target"))
  | "log" => do pure (log (← termField? v "message"))
  | "guard" => do
    pure (guard (← (v.field? "kind").bind GuardKind.ofJson?) (← v.fieldString? "guardrail")
      (← v.fieldStringOrNone? "message"))
  | _ => none

/-- The operation that a JSON value stands for. -/
def ofJson? (v : Json) : Option Op := do
  match ← v.fieldString? "op" with
  | "model" => (ModelSpec.ofJson? v).map model
  | "schema" => (SchemaSpec.ofJson? v).map schema
  | "tool" => (ToolSpec.ofJson? v).map tool
  | "retry" => (RetryPolicy.ofJson? v).map retry
  | "timeout" => (TimeoutPolicy.ofJson? v).map timeout
  | "guardrail" => (GuardrailSpec.ofJson? v).map guardrail
  | "prompt" => (PromptSpec.ofJson? v).map prompt
  | "agent" => (AgentSpec.ofJson? v).map agent
  | "flow" => do
    pure (flow (← v.fieldString? "name") (← (v.field? "params").bind Json.strings?))
  | "handler" => ((v.field? "event").bind HandlerEvent.ofJson?).map handler
  | "loop" => some (loop ((v.given? "max").bind Json.nat?))
  | "for_each" => do pure (forEach (← v.fieldString? "var") (← termField? v "iterable"))
  | "if" => (termField? v "condition").map branch
  | "else" => some otherwise
  | "match" => (termField? v "subject").map select
  | "arm" => some (arm (v.given? "pattern"))
  | "on_failure" => some onFailure
  | name => statementOfJson? v name

end Op

/-! ### Lines -/

def Line.toJson (l : Line) : Json :=
  let content := match l.content with
    | .op o => .obj [("type", .str "op"), ("op", o.toJson)]
    | .comment text => .obj [("type", .str "comment"), ("text", .str text)]
  .obj [("depth", .nat l.depth), ("content", content)]

def Line.ofJson? (v : Json) : Option Line := do
  let depth ← (v.field? "depth").bind Json.nat?
  let content ← v.field? "content"
  match ← content.fieldString? "type" with
  | "op" => do pure ⟨depth, .op (← (content.field? "op").bind Op.ofJson?)⟩
  | "comment" => do pure ⟨depth, .comment (← content.fieldString? "text")⟩
  | _ => none

def Listing.toJson (lines : Listing) : Json := .obj [("lines", .arr (lines.map Line.toJson))]

def Listing.ofJson? (v : Json) : Option Listing := do
  (← (v.field? "lines").bind Json.items?).mapM Line.ofJson?

end Workflow
