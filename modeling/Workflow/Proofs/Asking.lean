import Workflow.Proofs.Scopes
import Workflow.Run.Basic

/-!
Rules for prompts and agents. `Talking P` says that a property of processes that may fail is kept by each way in
which conversations are put together, and `Asking c P` that requests on the models of `c` have it as well. Then
`P` holds of prompts, and by induction on hierarchies of agents.
-/

namespace Workflow

open Context Process Act Hierarchy

def Event.isClosing : Event → Bool
  | agentClosed _ _ => true
  | _ => false

/-- A property of processes that may fail, with a rule for each way in which replies are dealt with. -/
structure Talking (P : {α : Type} → Act α → Prop) : Prop where
  value : ∀ {α : Type} (a : α), P (pure a)
  fault : ∀ {α : Type} {fault : RunFault}, fault.isReference = false → fault.isUnbound = false → P (fail fault : Act α)
  chain : ∀ {α β : Type} {x : Act α} {k : α → Act β}, P x → (∀ a, P (k a)) → P (x >>= k)
  event : ∀ {e : Event}, e.isClosing = false → P (liftM (emit e))

/-- What is more, there are rules for requests, and for what is looked up in a unit. -/
structure Asking (c : Context) (P : {α : Type} → Act α → Prop) : Prop extends Talking P where
  request : ∀ {requested declared : Option String} {m : ModelSpec}, c.model requested declared = .ok m →
    ∀ messages tools, P (liftM (request (request m messages tools)))
  wait : ∀ time : Duration, P (liftM (wait time))
  limited : ∀ (agent : String) (limit : Duration) {body : Act Answer}, P body → P (limited agent (some limit) body)
  built : ∀ {name : String} {h : Hierarchy}, build? c.unit.agents name = some h →
    P (liftM (note (.built name)))
  instruction : ∀ {name : String} {spec : AgentSpec}, c.unit.agents.get? name = some spec → ∀ {fault},
    c.prompt spec.instruction = .error fault → P (fail fault : Act Answer)
  model : ∀ {name : String} {p : PromptSpec}, c.unit.prompts.get? name = some p → ∀ {fault},
    c.model none p.model = .error fault → P (fail fault : Act Answer)
  schema : ∀ {name : String} {p : PromptSpec}, c.unit.prompts.get? name = some p → ∀ {fault},
    c.schema p = .error fault → P (fail fault : Act Answer)

lemma Act.ofExcept_bind {α β : Type} {P : Act β → Prop} {x : Except RunFault α} {k : α → Act β}
    (herror : ∀ {fault}, x = .error fault → P (fail fault)) (hok : ∀ {a}, x = .ok a → P (k a)) :
    P (ofExcept x >>= k) := by
  cases x with
  | ok a => exact hok rfl
  | error fault => exact herror rfl

lemma Context.get?_of_entry {α : Type} {kind name : String} {table : Table α} {a : α}
    (h : entry kind table name = .ok a) : table.get? name = some a := by
  unfold entry at h
  split at h
  · cases h
    assumption
  · cases h

variable {P : {α : Type} → Act α → Prop} {guard : Guard} {s : Speaker}

/-! ### Replies -/

namespace Talking

variable (h : Talking P) (hguard : ∀ event text, event ≠ .start → P (guard event text))
  (hdelegate : ∀ {target invoke}, s.delegate? target = some invoke → ∀ start, P (invoke start))
  (htool : ∀ {name invoke}, s.tool? name = some invoke → ∀ start, P (invoke start))

include h

lemma escalates (p : PromptSpec) (source text : String) : P (liftM (escalates p source text)) := by
  have hemit (e : Event) : (liftM (do emit e; pure true : Process Bool) : Act Bool) = (do emit e; pure true) := rfl
  unfold Context.escalates
  split
  · split
    · rw [hemit]
      exact h.chain (h.event rfl) fun _ => h.value true
    · exact h.value false
  · exact h.value false

lemma accept (c : Context) (s : Speaker) (v : Conversation) (text : String) : P (c.accept s v text) := by
  unfold Context.accept
  split
  · dsimp only
    split
    · exact h.fault rfl rfl
    · exact h.value _
  · exact h.chain (h.escalates _ _ _) fun escalated => h.chain (h.event rfl) fun _ => h.value _

include hguard

lemma settled (c : Context) (s : Speaker) (v : Conversation) (content : String) : P (c.settle guard s v content) := by
  refine h.chain (hguard .output content nofun) fun guarded => ?_
  split
  · split
    · exact h.value _
    · exact h.accept c s v guarded.text
  · exact h.accept c s v guarded.text

lemma openWith (start : Opening) : P (openWith guard start) := by
  cases start with
  | input text => exact h.chain (hguard .input text nofun) fun _ => h.value _
  | transfer history => exact h.value _

include htool in
lemma callTool (tool input : String) : P (callTool guard s tool input) := by
  unfold Context.callTool
  split
  · exact h.value _
  · next invoke hinvoke =>
    refine h.chain (hguard .toolCall input nofun) fun guarded => h.chain (h.event rfl) fun _ => ?_
    refine h.chain (htool hinvoke _) fun answer => h.chain (hguard .toolResult _ nofun) fun result => ?_
    exact h.chain (h.event rfl) fun _ => h.value _

include hdelegate htool

lemma follow (c : Context) (v : Conversation) (reply : Reply) : P (c.follow guard s v reply) := by
  unfold Context.follow
  split
  · exact h.chain (h.callTool hguard htool _ _) fun _ => h.value _
  · split
    · next invoke hinvoke =>
      exact h.chain (h.event rfl) fun _ => h.chain (hdelegate hinvoke _) fun _ => h.value _
    · exact h.value _
  · exact h.settled hguard c s v reply.content

end Talking

/-! ### Hierarchies -/

mutual

def Hierarchy.All (P : AgentSpec → Prop) : Hierarchy → Prop
  | .node spec delegates tools => P spec ∧ AllOf P delegates ∧ AllOf P tools

def Hierarchy.AllOf (P : AgentSpec → Prop) : List Hierarchy → Prop
  | [] => True
  | h :: rest => h.All P ∧ AllOf P rest

end

lemma Hierarchy.allOf_of_mem {P : AgentSpec → Prop} : ∀ {hs}, (∀ h ∈ hs, h.All P) → AllOf P hs
  | [], _ => trivial
  | h :: _, hall =>
    ⟨hall h List.mem_cons_self, allOf_of_mem fun h' hmem => hall h' (List.mem_cons_of_mem h hmem)⟩

lemma Hierarchy.unfold_all {agents : Table AgentSpec} {P : AgentSpec → Prop}
    (hagents : ∀ {name spec}, agents.get? name = some spec → P spec) : ∀ (depth : Nat)
    (path : List String) (spec : AgentSpec), P spec → (unfold agents depth path spec).All P
  | 0, _, _, hspec => ⟨hspec, trivial, trivial⟩
  | depth + 1, path, spec, hspec => by
    have hchildren : ∀ names : List String, AllOf P (names.filterMap fun name =>
        if (spec.name :: path).contains name then none
        else (agents.get? name).map (unfold agents depth (spec.name :: path))) := by
      intro names
      refine allOf_of_mem fun h hmem => ?_
      obtain ⟨name, -, hname⟩ := List.mem_filterMap.1 hmem
      split at hname
      · cases hname
      · obtain ⟨child, hchild, rfl⟩ := Option.map_eq_some_iff.1 hname
        exact unfold_all hagents depth _ child (hagents hchild)
    exact ⟨hspec, hchildren spec.delegate, hchildren spec.uses⟩

lemma Hierarchy.all_of_build {agents : Table AgentSpec} {name : String} {h : Hierarchy}
    (hbuild : build? agents name = some h) : h.All fun spec => ∃ name, agents.get? name = some spec := by
  obtain ⟨spec, hspec, rfl⟩ := Option.map_eq_some_iff.1 hbuild
  exact unfold_all (fun hget => ⟨_, hget⟩) _ _ spec ⟨name, hspec⟩

/-! ### Prompts and agents -/

namespace Asking

variable {c : Context} (h : Asking c P) (hguard : ∀ event text, event ≠ .start → P (guard event text))
  {requested declared : Option String}

section

variable (hdelegate : ∀ {target invoke}, s.delegate? target = some invoke → ∀ start, P (invoke start))
  (htool : ∀ {name invoke}, s.tool? name = some invoke → ∀ start, P (invoke start))

include h

lemma completeFrom (policy : RetryPolicy) (hr : P (liftM (Process.request r))) (left : Nat) :
    ∀ attempt : Nat, P (c.completeFrom policy r attempt left) := by
  induction left with
  | zero =>
    intro attempt
    refine h.chain hr fun reply => ?_
    cases reply with
    | ok reply => exact h.value reply
    | error e => exact h.fault rfl rfl
  | succ left ih =>
    intro attempt
    refine h.chain hr fun reply => ?_
    cases reply with
    | ok reply => exact h.value reply
    | error e => exact h.chain (h.wait _) fun _ => ih (attempt + 1)

lemma complete (policy : Option RetryPolicy) (hr : P (liftM (Process.request r))) : P (c.complete policy r) := by
  cases policy <;> exact h.completeFrom _ hr _ _

include hguard

lemma askFrom (p : PromptSpec) {m : ModelSpec} (hm : c.model requested declared = .ok m)
    (schema : Option SchemaSpec) (left : Nat) : ∀ (attempt : Nat) (reason : String) (messages : List Message),
    P (c.askFrom guard p m schema attempt reason messages left) := by
  induction left with
  | zero => exact fun _ _ _ => h.fault rfl rfl
  | succ left ih =>
    intro attempt reason messages
    refine h.chain (h.event rfl) fun _ => h.chain (h.complete none (h.request hm _ _)) fun reply => ?_
    refine h.chain (hguard .output _ nofun) fun guarded => ?_
    dsimp only
    split
    · exact ih _ _ _
    · split
      · exact ih _ _ _
      · exact h.chain (h.escalates p _ _) fun _ => h.value _

lemma callPrompt {name : String} {model : Option String}
    (hname : ∀ {fault}, c.prompt name = .error fault → P (fail fault : Act Answer))
    (hmodel : ∀ {p : PromptSpec}, c.unit.prompts.get? name = some p → ∀ {fault},
      c.model model p.model = .error fault → P (fail fault : Act Answer))
    (args : List Json) (bindings : Table Json) : P (c.callPrompt guard name args model bindings) := by
  refine ofExcept_bind hname fun {p} hp => ?_
  have hprompt := get?_of_entry hp
  refine ofExcept_bind (hmodel hprompt) fun hm => ofExcept_bind (h.schema hprompt) fun _ => ?_
  exact h.askFrom hguard p hm _ _ _ _ _

include hdelegate htool

lemma turn (hs : c.model requested declared = .ok s.model) (v : Conversation) : P (c.turn guard s v) := by
  refine h.chain (h.complete _ (h.request hs _ _)) fun reply => ?_
  dsimp only
  split
  · exact h.chain (h.event rfl) fun _ => h.follow hguard hdelegate htool c v reply
  · exact h.follow hguard hdelegate htool c v reply

lemma conversation (hs : c.model requested declared = .ok s.model) (left : Nat) :
    ∀ v : Conversation, P (c.turns guard s left v) := by
  induction left with
  | zero => exact fun _ => h.fault rfl rfl
  | succ left ih =>
    intro v
    refine h.chain (h.turn hguard hdelegate htool hs v) fun result => ?_
    cases result with
    | inl v => exact ih v
    | inr answer => exact h.value answer

end

include h hguard in
lemma converse (bindings : Table Json) {spec : AgentSpec} (hspec : ∃ name, c.unit.agents.get? name = some spec)
    (tools : List ToolDescriptor) (delegate? tool? : String → Option Invoke)
    (hdelegate : ∀ {target invoke}, delegate? target = some invoke → ∀ start, P (invoke start))
    (htool : ∀ {name invoke}, tool? name = some invoke → ∀ start, P (invoke start))
    (start : Opening) : P (c.converse guard bindings spec tools delegate? tool? start) := by
  obtain ⟨name, hname⟩ := hspec
  refine ofExcept_bind (h.instruction hname) fun {p} hp => ?_
  have hprompt := get?_of_entry hp
  refine ofExcept_bind (h.model hprompt) fun hm => ofExcept_bind (h.schema hprompt) fun _ => ?_
  refine h.chain (h.openWith hguard start) fun _ => h.chain (h.event rfl) fun _ => ?_
  exact h.conversation hguard hdelegate htool hm _ _

mutual

theorem invoke (h : Asking c P) (hguard : ∀ event text, event ≠ .start → P (guard event text))
    (bindings : Table Json) : ∀ tree : Hierarchy,
    tree.All (fun spec => ∃ name, c.unit.agents.get? name = some spec) →
    ∀ start : Opening, P (c.invoke guard bindings tree start)
  | .node spec delegates tools, hall, start => by
    have hconverse := h.converse hguard bindings hall.1
      (descriptors c.unit.tools (.node spec delegates tools))
      (c.invokeNamed guard bindings delegates) (c.invokeNamed guard bindings tools)
      (invokeNamed h hguard bindings delegates hall.2.1) (invokeNamed h hguard bindings tools hall.2.2) start
    rw [Context.invoke]
    cases c.timeout? spec.timeout with
    | none => exact hconverse
    | some limit => exact h.limited spec.name limit hconverse

theorem invokeNamed (h : Asking c P) (hguard : ∀ event text, event ≠ .start → P (guard event text))
    (bindings : Table Json) : ∀ trees : List Hierarchy,
    AllOf (fun spec => ∃ name, c.unit.agents.get? name = some spec) trees →
    ∀ {name invoke}, c.invokeNamed guard bindings trees name = some invoke → ∀ start, P (invoke start)
  | [], _, _, _, hinvoke, _ => by
    rw [Context.invokeNamed] at hinvoke
    cases hinvoke
  | tree :: rest, hall, name, run, hinvoke, start => by
    rw [Context.invokeNamed] at hinvoke
    split at hinvoke
    · cases hinvoke
      exact invoke h hguard bindings tree hall.1 start
    · exact invokeNamed h hguard bindings rest hall.2 hinvoke start

end

include h hguard in
lemma runAgent {name : String} (hname : c.unit.agents.get? name = none →
      P (fail (.undefined "agent" name) : Act Answer)) (args : List Json) (bindings : Table Json) :
    P (c.runAgent guard name args bindings) := by
  unfold Context.runAgent
  split
  · next hnone => exact hname (Option.map_eq_none_iff.1 hnone)
  · next hbuild =>
    exact h.chain (h.built hbuild) fun _ => h.invoke hguard bindings _ (all_of_build hbuild) _

end Asking

end Workflow
