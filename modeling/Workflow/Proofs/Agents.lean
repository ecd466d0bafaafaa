import Workflow.Proofs.Asking
import Workflow.Proofs.Linked

/-!
Faults of prompts and agents. In a unit whose parts fit together a prompt finds its model and schema, and so
does every agent of a hierarchy. What is left are faults of models, answers, limits and handlers.
-/

namespace Workflow

variable {name : String}

/-- Handlers of texts fail with faults of a kind only. -/
def Guard.Safe (E : RunFault → Prop) (guard : Guard) : Prop :=
  ∀ event text, event ≠ .start → Act.Faults E (guard event text)

namespace Context

variable {E : RunFault → Prop} {c : Context} {guard : Guard} {defs : Definitions} {globals : Scope} {α : Type}
  {kind : String} {table : Table α} {p : PromptSpec} {fault : RunFault}

lemma fault_of_entry (h : (∃ a, table.get? name = some a) ∨ E (.undefined kind name))
    (hfault : entry kind table name = .error fault) : E fault := by
  unfold entry at hfault
  split at hfault
  · cases hfault
  · next hnone =>
    cases hfault
    exact h.resolve_left fun ⟨a, ha⟩ => nomatch hnone.symm.trans ha

lemma fault_of_model (hu : c.unit.Linked defs globals) (hp : c.unit.prompts.get? name = some p)
    (hrequested : ∀ m ∈ requested, (∃ spec, c.unit.models.get? m = some spec) ∨ E (.undefined "model" m))
    (hfault : c.model requested p.model = .error fault) : E fault := by
  unfold model at hfault
  dsimp only at hfault
  split at hfault
  · cases hfault
  · next hnone =>
    split at hfault
    · cases hfault
    · next hmain =>
      cases hfault
      cases requested with
      | some m => exact (hrequested m rfl).resolve_left fun ⟨spec, hspec⟩ => nomatch hnone.symm.trans hspec
      | none =>
        cases hdeclared : p.model with
        | none => exact absurd (congrArg (Option.getD · "main") hdeclared) hmain
        | some m =>
          obtain ⟨spec, hspec⟩ := hu.promptModel hp m hdeclared
          rw [hdeclared] at hnone
          exact nomatch hnone.symm.trans hspec

lemma schema_ne_error (hu : c.unit.Linked defs globals) (hp : c.unit.prompts.get? name = some p) :
    c.schema p ≠ .error fault := by
  intro hfault
  unfold schema at hfault
  split at hfault
  · next schema hschema =>
    obtain ⟨spec, hspec⟩ := hu.promptSchema hp schema hschema
    rw [entry, hspec] at hfault
    cases hfault
  · cases hfault

lemma faults_limited (hE : RunFault.Ordinary E) (hbody : Act.Faults E body) (agent : String) (limit : Duration) :
    Act.Faults E (limited agent (some limit) body) := by
  intro e h
  cases h with
  | inTime inside after =>
    cases after
    exact hbody e inside
  | late after =>
    cases after
    exact hE _ rfl rfl

lemma faults_asking (hu : c.unit.Linked defs globals) (hE : RunFault.Ordinary E) : Asking c (Act.Faults E) where
  value := Act.faults_pure
  fault hreference hunbound := Act.faults_fail (hE _ hreference hunbound)
  chain hx hk := hx.bind fun a _ => hk a
  event _ := Act.faults_lift _
  request _ _ _ := Act.faults_lift _
  wait _ := Act.faults_lift _
  limited agent limit _ hbody := faults_limited hE hbody agent limit
  built _ := Act.faults_lift _
  instruction hname _ hfault := by
    obtain ⟨p, hp⟩ := hu.instruction hname
    rw [prompt, entry, hp] at hfault
    cases hfault
  model hp _ hfault := Act.faults_fail (fault_of_model hu hp (by simp) hfault)
  schema hp _ hfault := absurd hfault (schema_ne_error hu hp)

lemma faults_callPrompt (hu : c.unit.Linked defs globals) (hE : RunFault.Ordinary E) (hguard : guard.Safe E)
    {model : Option String} (hname : (∃ p, c.unit.prompts.get? name = some p) ∨ E (.undefined "prompt" name))
    (hmodel : ∀ m ∈ model, (∃ spec, c.unit.models.get? m = some spec) ∨ E (.undefined "model" m))
    (args : List Json) (bindings : Table Json) :
    Act.Faults E (c.callPrompt guard name args model bindings) := by
  exact (faults_asking hu hE).callPrompt hguard (fun hfault => Act.faults_fail (fault_of_entry hname hfault))
    (fun hp _ hfault => Act.faults_fail (fault_of_model hu hp hmodel hfault)) args bindings

lemma faults_runAgent (hu : c.unit.Linked defs globals) (hE : RunFault.Ordinary E) (hguard : guard.Safe E)
    (hname : (∃ a, c.unit.agents.get? name = some a) ∨ E (.undefined "agent" name)) (args : List Json)
    (bindings : Table Json) : Act.Faults E (c.runAgent guard name args bindings) := by
  refine (faults_asking hu hE).runAgent hguard (fun hnone => Act.faults_fail ?_) args bindings
  exact hname.resolve_left fun ⟨a, ha⟩ => nomatch hnone.symm.trans ha

end Context

end Workflow
