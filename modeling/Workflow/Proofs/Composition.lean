import Workflow.Proofs.Mentions
import Workflow.Proofs.Search

/-!
Agents that lead back to themselves. What counts under a name is the first agent that is declared, and analysis
searches the graph of these for cycles: it reports one iff an agent leads back to itself. It does not print all
cycles there are. Of agents that all lead to each other one is entered first; every reference to that one is on
a cycle that is printed, while two others that refer to each other need not be.
-/

namespace Workflow

open List Definitions Analysis Workflow.Graph

variable {a : String} {programs : List Program} {cycle : List String}

/-! ### Agents and the agents they name -/

def Decl.agentNamed? (name : String) : Decl → Option AgentDef
  | .agent a => if a.effectiveName = name then some a else none
  | _ => none

/-- The agent that counts under a name: the first one, in the order of the files. -/
def agentOf? (programs : List Program) (name : String) : Option AgentDef :=
  (Lower.decls programs).findSome? (Decl.agentNamed? name)

/-- An agent names another one, as a delegate or as a tool. -/
def AgentDef.Names (a : AgentDef) (name : String) : Prop :=
  name ∈ plainNames (a.delegate.getD []) ∨ name ∈ plainNames (a.uses.getD [])

instance (a : AgentDef) (name : String) : Decidable (a.Names name) :=
  inferInstanceAs (Decidable (_ ∨ _))

/-- The agent that counts under a name composes another one: it names it, and there is such an agent. -/
def Composes (programs : List Program) (a b : String) : Prop :=
  (∃ d ∈ agentOf? programs a, d.Names b) ∧ (agentOf? programs b).isSome = true

instance (programs : List Program) (a b : String) : Decidable (Composes programs a b) :=
  inferInstanceAs (Decidable (_ ∧ _))

namespace Definitions

variable {name : String}

lemma decl_find?_agent (name : String) : ∀ (file : String) (ds : List Decl),
    (find? (ds.filterMap (ofDecl? file)) .agent name).map (·.decl) = (ds.findSome? (Decl.agentNamed? name)).map .agent
  | _, [] => rfl
  | file, d :: ds => by
    have ih := decl_find?_agent name file ds
    cases d with
    | agent a =>
      by_cases hname : a.effectiveName = name
      · simp [ofDecl?, Decl.named?, find?, Decl.agentNamed?, hname]
      · simpa [ofDecl?, Decl.named?, find?, Decl.agentNamed?, hname] using ih
    | _ => exact ih

lemma decl_agentOf? (programs : List Program) (name : String) :
    ((ofPrograms programs).1.find? .agent name).map (·.decl) = (agentOf? programs name).map .agent := by
  rw [find?_ofPrograms]
  induction programs with
  | nil => rfl
  | cons p ps ih =>
    have hlisted : listed (p :: ps) = p.decls.filterMap (ofDecl? p.name) ++ listed ps := rfl
    have hdecls : Lower.decls (p :: ps) = p.decls ++ Lower.decls ps := rfl
    have hfirst := decl_find?_agent name p.name p.decls
    rw [hlisted, find?_append, agentOf?, hdecls, List.findSome?_append]
    cases hfind : find? (p.decls.filterMap (ofDecl? p.name)) .agent name with
    | none =>
      rw [hfind] at hfirst
      have hnone := Option.map_eq_none_iff.1 hfirst.symm
      simpa [hnone, agentOf?] using ih
    | some d =>
      rw [hfind] at hfirst
      obtain ⟨a, ha, hd⟩ := Option.map_eq_some_iff.1 hfirst.symm
      simp [ha, hd]

lemma contains_agent_iff : (ofPrograms programs).1.contains .agent name = true ↔
    (agentOf? programs name).isSome = true := by
  have h := congrArg Option.isSome (decl_agentOf? programs name)
  rw [Option.isSome_map, Option.isSome_map] at h
  rw [contains, h]

lemma mem_agents_iff {a : AgentDef} :
    (name, a) ∈ (ofPrograms programs).1.agents ↔ agentOf? programs name = some a := by
  have hdecl := decl_agentOf? programs name
  constructor
  · intro h
    obtain ⟨d, hd, heq⟩ := mem_filterMap.1 h
    obtain ⟨kind, other, file, place, decl⟩ := d
    cases decl with
    | agent b =>
      obtain ⟨rfl, rfl⟩ : other = name ∧ b = a := by simpa using heq
      have hfind := find?_of_mem (keys_ofPrograms programs) hd
      have hlisted : (listed programs).find? kind other = some ⟨kind, other, file, place, .agent b⟩ := by
        rw [← find?_ofPrograms]
        exact hfind
      have hnamed := faithful_listed programs _ (List.mem_of_find?_eq_some hlisted)
      obtain rfl : DefKind.agent = kind := by simpa [Decl.named?] using congrArg (·.map (·.1)) hnamed
      rw [show (ofPrograms programs).1.find? .agent other = _ from hfind] at hdecl
      obtain ⟨c, hc, heq⟩ := Option.map_eq_some_iff.1 hdecl.symm
      cases heq
      exact hc
    | _ => cases heq
  · intro h
    rw [h] at hdecl
    obtain ⟨d, hd, heq⟩ := Option.map_eq_some_iff.1 hdecl
    have hname := List.find?_some hd
    simp only [Bool.and_eq_true, decide_eq_true_eq] at hname
    refine mem_filterMap.2 ⟨d, List.mem_of_find?_eq_some hd, ?_⟩
    rw [show d.decl = .agent a from heq, hname.2]

end Definitions

/-! ### The graph of agents -/

lemma Graph.mem_ofEdges (edge : String × String) : ∀ (edges : List (String × String)) (g : Graph),
    edge ∈ (edges.foldl addEdge g).edges ↔ edge ∈ g.edges ∨ edge ∈ edges
  | [], g => by simp
  | first :: edges, g => by
    have hadd : edge ∈ (g.addEdge first).edges ↔ edge ∈ g.edges ∨ edge = first := by
      unfold addEdge
      split
      · next hmem =>
        have hfirst : first ∈ g.edges := by simpa using hmem
        refine ⟨.inl, fun h => h.elim id fun heq => heq ▸ hfirst⟩
      · simp
    rw [foldl_cons, mem_ofEdges edge edges, hadd, mem_cons, or_assoc]

namespace Analysis

lemma edge_agentGraph {b : String} : (agentGraph (ofPrograms programs).1).Edge a b ↔ Composes programs a b := by
  have hedge : (agentGraph (ofPrograms programs).1).Edge a b ↔
      ∃ d, (a, d) ∈ (ofPrograms programs).1.agents ∧ b ∈ composed d ∧
        (ofPrograms programs).1.contains .agent b = true := by
    simp only [Graph.Edge, agentGraph, ofEdges, mem_ofEdges, not_mem_nil, false_or, mem_flatMap, mem_map, mem_filter]
    constructor
    · rintro ⟨⟨name, d⟩, hd, target, htarget, heq⟩
      cases heq
      exact ⟨d, hd, htarget⟩
    · rintro ⟨d, hd, htarget⟩
      exact ⟨(a, d), hd, b, htarget, rfl⟩
  have hnames : ∀ d : AgentDef, b ∈ composed d ↔ d.Names b := by
    intro d
    simp [composed, AgentDef.Names, plainNames]
  rw [hedge, Composes]
  simp only [mem_agents_iff, contains_agent_iff, hnames, Option.mem_def]
  constructor
  · rintro ⟨d, hd, hname, hb⟩
    exact ⟨⟨d, hd, hname⟩, hb⟩
  · rintro ⟨⟨d, hd, hname⟩, hb⟩
    exact ⟨d, hd, hname, hb⟩

lemma edge_eq (programs : List Program) : (agentGraph (ofPrograms programs).1).Edge = Composes programs := by
  funext a b
  exact propext edge_agentGraph

lemma mem_roots (h : (agentOf? programs name).isSome = true) : name ∈ (ofPrograms programs).1.agents.map (·.1) := by
  obtain ⟨a, ha⟩ := Option.isSome_iff_exists.1 h
  exact mem_map.2 ⟨(name, a), mem_agents_iff.2 ha, rfl⟩

/-! ### What analysis reports -/

/-- A problem of some programs is about agents that lead back to themselves iff it tells a cycle that the
search has met. -/
lemma mem_problems_circular : (file, p) ∈ problems programs ∧ p.cause.code = .circularAgent ↔
      (file, p) ∈ cycleProblems (ofPrograms programs).1 := by
  constructor
  · rintro ⟨hmem, hcode⟩
    have hnamed : (file, p) ∈ namedIn (problems programs) :=
      mem_filter.2 ⟨hmem, by simp [aboutNames, hcode]⟩
    rw [namedIn_problems] at hnamed
    rcases mem_append.1 hnamed with hundefined | hcycle
    · have hother := code_of_undefinedProblems hundefined
      rw [hcode] at hother
      cases hother
    · exact hcycle
  · intro hmem
    exact ⟨mem_append_right _ hmem, code_of_cycleProblems hmem⟩

def agentCycles (programs : List Program) : List (List String) :=
  (agentGraph (ofPrograms programs).1).cycles ((ofPrograms programs).1.agents.map (·.1))

lemma isCycle_of_agentCycles (h : cycle ∈ agentCycles programs) : IsCycle (Composes programs) cycle := by
  have hcycle := isCycle_of_mem h
  rwa [edge_eq] at hcycle

/-- An analysis reports a cycle: it has a diagnostic for circular agents that prints it. -/
def Reports (a : Analysis) (cycle : List String) : Prop :=
  ∃ d ∈ a.diagnostics, d.code = .circularAgent ∧ d.message = "circular agent reference: " ++ " -> ".intercalate cycle

variable {root : Program} {imports : List Program}

lemma mem_diagnostics : d ∈ (analyze root imports).diagnostics ↔
    ∃ file p, (file, p) ∈ problems (root :: imports) ∧ p.toDiagnostic file = d := by
  simp only [analyze, Diagnostic.sort, mem_mergeSort, mem_map, Prod.exists]

lemma cycle_of_diagnostic (hd : d ∈ (analyze root imports).diagnostics) (hcode : d.code = .circularAgent) :
    ∃ cycle ∈ agentCycles (root :: imports), d.message = "circular agent reference: " ++ " -> ".intercalate cycle := by
  obtain ⟨file, p, hp, rfl⟩ := mem_diagnostics.1 hd
  have hmem := mem_problems_circular.1 ⟨hp, hcode⟩
  obtain ⟨cycle, hcycle, heq⟩ := mem_filterMap.1 hmem
  obtain ⟨first, -, heq⟩ := Option.bind_eq_some_iff.1 heq
  obtain ⟨x, -, heq⟩ := Option.bind_eq_some_iff.1 heq
  cases heq
  exact ⟨cycle, hcycle, rfl⟩

lemma problem_of_cycle (h : cycle ∈ agentCycles programs) :
    ∃ file place, (file, ⟨.circularAgent cycle, place⟩) ∈ problems programs := by
  have hcycle := isCycle_of_agentCycles h
  obtain ⟨first, between, rfl, -⟩ := hcycle.closed
  have hfirst : (agentOf? programs first).isSome = true := by
    obtain ⟨next, rest, hnext⟩ : ∃ next rest, between ++ [first] = next :: rest := by
      cases between with
      | nil => exact ⟨first, [], rfl⟩
      | cons next rest => exact ⟨next, rest ++ [first], rfl⟩
    have hsteps := hcycle.steps
    rw [cons_append, hnext] at hsteps
    obtain ⟨⟨a, ha, -⟩, -⟩ := (isChain_cons_cons.1 hsteps).1
    exact Option.isSome_iff_exists.2 ⟨a, ha⟩
  obtain ⟨x, hx⟩ := Option.isSome_iff_exists.1 (contains_agent_iff.2 hfirst)
  refine ⟨x.file, x.place, (mem_problems_circular.2 (mem_filterMap.2 ⟨_, h, ?_⟩)).1⟩
  simp [hx]

lemma reports_of_mem (h : cycle ∈ agentCycles (root :: imports)) : (analyze root imports).Reports cycle := by
  obtain ⟨file, place, hproblem⟩ := problem_of_cycle h
  exact ⟨_, mem_diagnostics.2 ⟨file, _, hproblem, rfl⟩, rfl, rfl⟩

/-- Of the agents that are tied to one, the one that is entered first is on a cycle with each of them that
composes it. -/
lemma agentCycles_of_tied (ha : (agentOf? programs a).isSome = true) : ∃ first, Tied (Composes programs) a first ∧
      ∀ x, Tied (Composes programs) a x → Composes programs x first →
        ∃ cycle ∈ agentCycles programs, x ∈ cycle ∧ first ∈ cycle := by
  rw [← edge_eq]
  exact cycles_of_tied (mem_roots ha)

lemma agentCycles_of_first (horder : (ofPrograms programs).1.agents.map (·.1) = front ++ a :: back)
    (hfront : ∀ x ∈ front, ¬ Relation.ReflTransGen (Composes programs) x a) :
    ∀ x, Tied (Composes programs) a x → Composes programs x a →
      ∃ cycle ∈ agentCycles programs, x ∈ cycle ∧ a ∈ cycle := by
  rw [agentCycles, horder]
  rw [← edge_eq] at hfront ⊢
  exact cycles_of_first hfront

lemma agentCycles_eq_nil_iff (programs : List Program) :
    agentCycles programs = [] ↔ ¬ ∃ a, Relation.TransGen (Composes programs) a a := by
  rw [← edge_eq, agentCycles]
  refine cycles_eq_nil_iff fun edge hedge => ?_
  obtain ⟨⟨d, hd, -⟩, -⟩ := edge_agentGraph.1 hedge
  exact mem_roots (Option.isSome_iff_exists.2 ⟨d, hd⟩)

end Analysis

/-- The search for cycles comes to exactly one end, and reports nothing but cycles without repetition; nothing
iff there is no cycle, where all names are among the roots. Analysis therefore reports circular agents iff some
agent leads back to itself, and prints real cycles. -/
theorem agent_cycles_exact : (∀ (g : Graph) (roots : List String),
      (∃ t, g.Explores [] {} roots t) ∧ (∀ t, g.Explores [] {} roots t → t.cycles = g.cycles roots) ∧
      (∀ cycle ∈ g.cycles roots, IsCycle g.Edge cycle) ∧
      ((∀ edge ∈ g.edges, edge.1 ∈ roots ∧ edge.2 ∈ roots) →
        (g.cycles roots = [] ↔ ¬ ∃ a, Relation.TransGen g.Edge a a))) ∧
    ∀ (root : Program) (imports : List Program), ((∃ d ∈ (analyze root imports).diagnostics, d.code = .circularAgent) ↔
        ∃ a, Relation.TransGen (Composes (root :: imports)) a a) ∧
      ∀ d ∈ (analyze root imports).diagnostics, d.code = .circularAgent →
        ∃ cycle, d.message = "circular agent reference: " ++ " -> ".intercalate cycle ∧
          IsCycle (Composes (root :: imports)) cycle := by
  refine ⟨fun g roots => ?_, fun root imports => ⟨?_, fun d hd hcode => ?_⟩⟩
  · obtain ⟨t, hexplores, hcycles⟩ := g.explores_cycles roots
    refine ⟨⟨t, hexplores⟩, fun u hu => ?_, fun cycle hcycle => isCycle_of_mem hcycle,
      fun hroots => cycles_eq_nil_iff fun edge hedge => (hroots edge hedge).1⟩
    rw [← hexplores.unique hu]
    exact hcycles
  · constructor
    · rintro ⟨d, hd, hcode⟩
      obtain ⟨cycle, hcycle, -⟩ := cycle_of_diagnostic hd hcode
      exact (isCycle_of_agentCycles hcycle).transGen
    · intro hcircular
      have hsome : agentCycles (root :: imports) ≠ [] := fun hnil =>
        (agentCycles_eq_nil_iff _).1 hnil hcircular
      obtain ⟨cycle, hcycle⟩ := exists_mem_of_ne_nil _ hsome
      obtain ⟨d, hd, hcode, -⟩ := reports_of_mem hcycle
      exact ⟨d, hd, hcode⟩
  · obtain ⟨cycle, hcycle, hmessage⟩ := cycle_of_diagnostic hd hcode
    exact ⟨cycle, hmessage, isCycle_of_agentCycles hcycle⟩

/-- Two circles of names, one of a single name. -/
def circles : Graph := .ofEdges [("a", "b"), ("b", "a"), ("c", "c")]

theorem agent_cycles_exact_circles : (∀ edge ∈ circles.edges, edge.1 ∈ ["a", "b", "c"] ∧ edge.2 ∈ ["a", "b", "c"]) ∧
    circles.cycles ["a", "b", "c"] = [["a", "b", "a"], ["c", "c"]] ∧
    ∃ a, Relation.TransGen circles.Edge a a := by
  have hroots : ∀ edge ∈ circles.edges, edge.1 ∈ ["a", "b", "c"] ∧ edge.2 ∈ ["a", "b", "c"] := by decide
  have hcycles : circles.cycles ["a", "b", "c"] = [["a", "b", "a"], ["c", "c"]] := by decide
  refine ⟨hroots, hcycles, ?_⟩
  have hiff := (agent_cycles_exact.1 circles ["a", "b", "c"]).2.2.2 hroots
  rw [hcycles] at hiff
  exact not_not.1 fun hnone => cons_ne_nil _ _ (hiff.2 hnone)

/-- Where an agent composes another one that leads back to it, one of the agents that both are tied to is on a
reported cycle with each of them that composes it; that is the second of the two, and so both are on a reported
cycle, if no agent that is defined before it leads to it. -/
theorem tied_agents_reported {root : Program} {imports : List Program} {a b : String}
    (hab : Composes (root :: imports) a b)
    (hba : Relation.ReflTransGen (Composes (root :: imports)) b a) :
    ∃ first, Tied (Composes (root :: imports)) a first ∧
      (∃ x, Tied (Composes (root :: imports)) a x ∧ Composes (root :: imports) x first) ∧
      (∀ x, Tied (Composes (root :: imports)) a x → Composes (root :: imports) x first →
        ∃ cycle, (analyze root imports).Reports cycle ∧
          IsCycle (Composes (root :: imports)) cycle ∧ x ∈ cycle ∧ first ∈ cycle ∧
          ∀ y ∈ cycle, Tied (Composes (root :: imports)) a y) ∧
      ((∃ front back, (analyze root imports).definitions.agents.map (·.1) = front ++ b :: back ∧
        ∀ x ∈ front, ¬ Relation.ReflTransGen (Composes (root :: imports)) x b) → first = b) := by
  have htied : Tied (Composes (root :: imports)) a b := ⟨.single hab, hba⟩
  -- the agent that is entered first, which is the second one where nothing before it leads to it
  obtain ⟨first, hfirst, hcycles, horder⟩ : ∃ first, Tied (Composes (root :: imports)) a first ∧
      (∀ x, Tied (Composes (root :: imports)) a x → Composes (root :: imports) x first →
        ∃ cycle ∈ agentCycles (root :: imports), x ∈ cycle ∧ first ∈ cycle) ∧
      ((∃ front back, (analyze root imports).definitions.agents.map (·.1) = front ++ b :: back ∧
        ∀ x ∈ front, ¬ Relation.ReflTransGen (Composes (root :: imports)) x b) → first = b) := by
    by_cases horder : ∃ front back, (analyze root imports).definitions.agents.map (·.1) = front ++ b :: back ∧
        ∀ x ∈ front, ¬ Relation.ReflTransGen (Composes (root :: imports)) x b
    · obtain ⟨front, back, heq, hfront⟩ := horder
      refine ⟨b, htied, fun x hx hxb => ?_, fun _ => rfl⟩
      exact agentCycles_of_first heq hfront x (htied.symm.trans hx) hxb
    · obtain ⟨d, hd, -⟩ := hab.1
      obtain ⟨first, hfirst, hcycles⟩ :=
        agentCycles_of_tied (Option.isSome_iff_exists.2 ⟨d, hd⟩)
      exact ⟨first, hfirst, hcycles, fun h => absurd h horder⟩
  refine ⟨first, hfirst, ?_, fun x hx hxfirst => ?_, horder⟩
  · have hcircle : Relation.TransGen (Composes (root :: imports)) first first :=
      (Relation.TransGen.trans_right hfirst.2 (.head' hab hba)).trans_left hfirst.1
    obtain ⟨x, hto, hlast⟩ := Relation.TransGen.tail'_iff.1 hcircle
    exact ⟨x, ⟨hfirst.1.trans hto, .head hlast hfirst.2⟩, hlast⟩
  · obtain ⟨cycle, hcycle, hmem, hmem'⟩ := hcycles x hx hxfirst
    have hreal := isCycle_of_agentCycles hcycle
    exact ⟨cycle, reports_of_mem hcycle, hreal, hmem, hmem', fun y hy => hx.trans (hreal.tied hmem hy)⟩

/-- Three agents: `s` hands over to both others, `b` back to `s`, and `a` to `b`. -/
def circleSource : String :=
  "prompt p: \"x\"\nagent s:\n instruction p\n delegate b, a\nagent b:\n instruction p\n delegate s\n"
    ++ "agent a:\n instruction p\n delegate b\n"

/-- What the three agents are to each other, and what the search meets among them. -/
structure CircleSample (root : Program) : Prop where
  parses : Program.ofSource circleSource "main.wv" = .ok root
  forth : Composes [root] "a" "b"
  back : Composes [root] "b" "s"
  round : Composes [root] "s" "a"
  order : (analyze root []).definitions.agents.map (·.1) = ["s", "b", "a"]
  cycles : agentCycles [root] = [["s", "b", "s"]]

lemma exists_circleSample : ∃ root, CircleSample root := by
  have hrun : (Program.ofSource circleSource "main.wv").toOption.any (fun root =>
      decide (Composes [root] "a" "b") && decide (Composes [root] "b" "s")
      && decide (Composes [root] "s" "a")
      && decide ((analyze root []).definitions.agents.map (·.1) = ["s", "b", "a"])
      && decide (agentCycles [root] = [["s", "b", "s"]])) = true := by
    decide +kernel
  obtain ⟨root, hroot, hrun⟩ := Except.of_any hrun
  simp only [Bool.and_eq_true, decide_eq_true_eq] at hrun
  obtain ⟨⟨⟨⟨hforth, hback⟩, hround⟩, horder⟩, hcycles⟩ := hrun
  exact ⟨root, hroot, hforth, hback, hround, horder, hcycles⟩

/-- `b` composes `s`, which is defined first. -/
theorem tied_agents_reported_first : ∃ root, Program.ofSource circleSource "main.wv" = .ok root ∧
    Composes [root] "b" "s" ∧ Relation.ReflTransGen (Composes [root]) "s" "b" ∧
    ∃ cycle, (analyze root []).Reports cycle ∧ "b" ∈ cycle ∧ "s" ∈ cycle := by
  obtain ⟨root, h⟩ := exists_circleSample
  have hreach : Relation.ReflTransGen (Composes [root]) "s" "b" := (Relation.ReflTransGen.single h.round).tail h.forth
  refine ⟨root, h.parses, h.back, hreach, ?_⟩
  obtain ⟨first, -, -, hcycles, horder⟩ := tied_agents_reported h.back hreach
  obtain rfl := horder ⟨[], ["b", "a"], h.order, by simp⟩
  obtain ⟨cycle, hreports, -, hb, hs, -⟩ := hcycles "b" (.refl "b") h.back
  exact ⟨cycle, hreports, hb, hs⟩

lemma mem_intercalate {name separator : String} (hc : c ∈ name.toList) :
    ∀ {names}, name ∈ names → c ∈ (separator.intercalate names).toList := by
  intro names hname
  rw [String.toList_intercalate]
  induction names with
  | nil => exact nomatch hname
  | cons first rest ih =>
    cases rest with
    | nil =>
      obtain rfl := mem_singleton.1 hname
      simpa using hc
    | cons second rest =>
      rw [map_cons, map_cons, intercalate_cons_cons]
      rcases mem_cons.1 hname with rfl | hname
      · simp [hc]
      · exact mem_append_right _ (ih hname)

/-- `a` composes `b`, which leads back to `a` by way of `s`. But `b` has been left behind when `a` is entered,
and the one cycle that is printed has no `a`. -/
theorem tied_agents_unreported : ∃ root, Program.ofSource circleSource "main.wv" = .ok root ∧
    Composes [root] "a" "b" ∧ Relation.ReflTransGen (Composes [root]) "b" "a" ∧
    ¬ ∃ cycle, (analyze root []).Reports cycle ∧ "a" ∈ cycle ∧ "b" ∈ cycle := by
  obtain ⟨root, h⟩ := exists_circleSample
  have hreach : Relation.ReflTransGen (Composes [root]) "b" "a" := (Relation.ReflTransGen.single h.back).tail h.round
  refine ⟨root, h.parses, h.forth, hreach, ?_⟩
  rintro ⟨cycle, ⟨d, hd, hcode, hmessage⟩, ha, -⟩
  obtain ⟨printed, hprinted, hmessage'⟩ := cycle_of_diagnostic hd hcode
  rw [h.cycles, mem_singleton] at hprinted
  subst hprinted
  have htext := (String.append_right_inj _).1 (hmessage.symm.trans hmessage')
  have hmem : 'a' ∈ (" -> ".intercalate cycle).toList := mem_intercalate (by decide) ha
  rw [htext] at hmem
  revert hmem
  decide

end Workflow
