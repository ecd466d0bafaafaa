import Workflow.Proofs.Arenas
import Workflow.Proofs.Composition
import Workflow.Proofs.Linked

/-!
Hierarchies of compiled agents. A hierarchy leaves out what is not there and what is on the way already, and
stops at a depth. Where a source compiles none of this happens: the agents on the way all lead to the next one
and are different from it, so the depth is never used up.
-/

namespace Workflow

open List Hierarchy Lower Option

variable {programs : List Program}

/-- The delegates and tools of an agent, all the way down: at every node stands the agent that counts under its
name, with a tree for each delegate and each tool that it names. -/
inductive Hierarchy.Unfolds (programs : List Program) : Hierarchy → Prop where
  | node {name} {d} {delegates tools} (agent : agentOf? programs name = some d)
    (delegate : delegates.map Hierarchy.name = plainNames (d.delegate.getD []))
    (uses : tools.map Hierarchy.name = plainNames (d.uses.getD []))
    (below : ∀ h ∈ delegates ++ tools, h.Unfolds programs) :
    Unfolds programs (.node (agentSpec name d) delegates tools)

/-! ### What analysis has made sure of -/

lemma agent_of_agentOf? (hd : agentOf? programs a = some d) : .agent d ∈ decls programs ∧ d.effectiveName = a := by
  obtain ⟨decl, hdecl, hnamed⟩ := List.exists_of_findSome?_eq_some hd
  cases decl with
  | agent d' =>
    simp only [Decl.agentNamed?] at hnamed
    split at hnamed
    · next hname =>
      cases hnamed
      exact ⟨hdecl, hname⟩
    · cases hnamed
  | _ => cases hnamed

namespace Analysis

lemma Clean.acyclic (h : Clean programs) : ¬ ∃ a, Relation.TransGen (Composes programs) a a := by
  refine (agentCycles_eq_nil_iff programs).1 (eq_nil_iff_forall_not_mem.2 fun cycle hcycle => ?_)
  obtain ⟨file, place, hproblem⟩ := problem_of_cycle hcycle
  exact h _ (mem_map.2 ⟨_, hproblem, rfl⟩) rfl

lemma Clean.composes (h : Clean programs) (hd : agentOf? programs a = some d) (hb : d.Names b) :
    Composes programs a b := by
  refine ⟨⟨d, hd, hb⟩, ?_⟩
  have hchecked := CompiledUnit.checked_of_clean h (agent_of_agentOf? hd).1
  simp only [Analysis.checkDecl, checkAgent, harmless_append] at hchecked
  have hresolved := harmless_flatMap.1 hchecked.1.2
  have hcontains : ∀ names : List Name, names ⊆ d.delegate.getD [] ++ d.uses.getD [] →
      b ∈ plainNames names → (agentOf? programs b).isSome = true := by
    intro names hnames hmem
    obtain ⟨name, hname, rfl⟩ := mem_map.1 hmem
    rw [← Definitions.contains_agent_iff, h.ofPrograms_eq]
    exact contains_of_resolve (hresolved name (hnames hname))
  rcases hb with hb | hb
  · exact hcontains _ (subset_append_left _ _) hb
  · exact hcontains _ (subset_append_right _ _) hb

end Analysis

lemma CompiledUnit.Lowers.get?_agents {u : CompiledUnit} (h : u.Lowers (decls programs)) (name : String) :
    u.agents.get? name = (agentOf? programs name).map (agentSpec name) := by
  cases hagent : agentOf? programs name with
  | some d =>
    obtain ⟨hd, rfl⟩ := agent_of_agentOf? hagent
    exact h.agents.get?.2 (mem_filterMap.2 ⟨_, hd, rfl⟩)
  | none =>
    refine eq_none_iff_forall_ne_some.2 fun spec hspec => ?_
    obtain ⟨d, hd, heq⟩ := decl_of_entry h.agents hspec
    cases d with
    | agent d =>
      cases heq
      simpa [Decl.agentNamed?] using List.findSome?_eq_none_iff.1 hagent _ hd
    | _ => cases heq

namespace Hierarchy

/-- Where all names are of agents that are there, and none leads back to itself, a full tree is the agent
unfolded all the way down. -/
lemma Full.unfolds {agents : Table AgentSpec}
    (hagents : ∀ name, agents.get? name = (agentOf? programs name).map (agentSpec name))
    (hnames : ∀ {a b d}, agentOf? programs a = some d → d.Names b → Composes programs a b)
    (hacyclic : ¬ ∃ a, Relation.TransGen (Composes programs) a a) (hfull : Full agents path h)
    (hpath : ∀ a ∈ path, Relation.TransGen (Composes programs) a h.name) : h.Unfolds programs := by
  induction hfull with
  | @node path spec delegates tools known _ delegate uses _ ih =>
    rw [hagents, map_eq_some_iff] at known
    obtain ⟨d, hd, hspec⟩ := known
    generalize spec.name = agent at *
    subst hspec
    -- the agents on the way all lead to whatever the agent names
    have hleads : ∀ next, d.Names next → ∀ a ∈ agent :: path, Relation.TransGen (Composes programs) a next :=
      fun next hnext => forall_mem_cons.2
        ⟨.single (hnames hd hnext), fun a ha => (hpath a ha).tail (hnames hd hnext)⟩
    have hkept : ∀ next, d.Names next → next ∉ agent :: path ∧ agents.contains next := by
      intro next hnext
      refine ⟨fun hmem => hacyclic ⟨next, hleads next hnext next hmem⟩, ?_⟩
      rw [Table.contains, hagents, isSome_map]
      exact (hnames hd hnext).2
    replace delegate : delegates.map name = plainNames (d.delegate.getD []) :=
      delegate.trans (filter_eq_self.2 fun next hnext => decide_eq_true (hkept next (.inl hnext)))
    replace uses : tools.map name = plainNames (d.uses.getD []) :=
      uses.trans (filter_eq_self.2 fun next hnext => decide_eq_true (hkept next (.inr hnext)))
    have hbelow : ∀ t ∈ delegates ++ tools, t.Unfolds programs := by
      intro t ht
      refine ih t ht (hleads t.name ?_)
      rcases mem_append.1 ht with ht | ht
      · exact .inl (delegate ▸ mem_map_of_mem ht)
      · exact .inr (uses ▸ mem_map_of_mem ht)
    exact .node hd delegate uses hbelow

end Hierarchy

/-- Where a source compiles, every agent that is defined has a hierarchy, and it is the agent unfolded all the
way down. -/
theorem build_unfolds {config : CompilerConfig} {files : Files} {source name : String} {root : Program}
    {loaded : Loaded} {compiled : Compiled} (hroot : Program.ofSource source name = .ok root)
    (hloaded : root.load files = .ok loaded) (hcompiled : compile config files source name = .ok compiled)
    {agent : String} (hagent : (agentOf? (root :: loaded.imports) agent).isSome = true) :
    ∃ h, build? compiled.unit.agents agent = some h ∧ h.name = agent ∧ h.Unfolds (root :: loaded.imports) := by
  obtain ⟨hclean, hlowers⟩ := lowers_of_compile hroot hloaded hcompiled
  obtain ⟨d, hd⟩ := isSome_iff_exists.1 hagent
  have hagents := hlowers.get?_agents
  have hspec : compiled.unit.agents.get? agent = some (agentSpec agent d) := by
    rw [hagents, hd]
    rfl
  have hkeyed : ∀ name spec, compiled.unit.agents.get? name = some spec → spec.name = name := by
    intro name spec hspec
    rw [hagents, map_eq_some_iff] at hspec
    obtain ⟨_, -, rfl⟩ := hspec
    rfl
  have hfull : Hierarchy.Full compiled.unit.agents []
      (.unfold compiled.unit.agents compiled.unit.agents.length [] (agentSpec agent d)) :=
    full_unfold hkeyed _ hspec (nodup_singleton _) (nil_subset _) .refl
  refine ⟨_, ?_, name_unfold compiled.unit.agents compiled.unit.agents.length [] (agentSpec agent d), ?_⟩
  · rw [build?, hspec]
    rfl
  · exact hfull.unfolds hagents hclean.composes hclean.acyclic nofun

/-- A lead that names the same delegate twice, and a tool that its delegate uses as well. -/
def teamSource : String :=
  "prompt p: \"x\"\nagent lead:\n instruction p\n delegate writer, writer\n use critic\n"
    ++ "agent writer:\n instruction p\n use critic\nagent critic:\n instruction p\n"

theorem build_unfolds_team : ∃ root compiled h, Program.ofSource teamSource "main" = .ok root ∧
    compile {} [] teamSource "main" = .ok compiled ∧ (agentOf? [root] "lead").isSome = true ∧
    build? compiled.unit.agents "lead" = some h ∧ h.Unfolds [root] ∧
    h.delegates.map name = ["writer", "writer"] ∧ h.tools.map name = ["critic"] := by
  obtain ⟨root, loaded, compiled, hroot, hloaded, hcompiled, h⟩ := Program.exists_of_compilesTo
    (show Program.compilesTo [] teamSource "main" (fun root loaded c => loaded.imports.isEmpty
      && (agentOf? [root] "lead").isSome && (build? c.unit.agents "lead").all fun h =>
        decide (h.delegates.map name = ["writer", "writer"])
        && decide (h.tools.map name = ["critic"])) = true by decide +kernel)
  simp only [Bool.and_eq_true, List.isEmpty_iff, Option.all_eq_true, decide_eq_true_eq] at h
  obtain ⟨⟨himports, hagent⟩, hnames⟩ := h
  obtain ⟨h, hbuild, -, hunfolds⟩ := build_unfolds hroot hloaded hcompiled (himports ▸ hagent)
  exact ⟨root, compiled, h, hroot, hcompiled, hagent, hbuild, himports ▸ hunfolds, hnames h hbuild⟩

end Workflow
