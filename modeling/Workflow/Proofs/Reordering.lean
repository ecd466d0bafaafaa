import Workflow.Proofs.Fullness
import Workflow.Proofs.Renaming
import Workflow.Proofs.Unfolding

/-!
Definitions in any order. The items of a program may be permuted, as long as its imports and its handlers stay
in their order: the permuted programs have an error exactly when the programs have one, and without errors they
assemble to the same, but for line numbers. Names found among definitions without duplicates do not depend on
their order, and tables are sorted by name.
-/

namespace Workflow

open List Definitions Analysis CompiledUnit Program Listing Lower Decl

variable {p q : Program} {α : Type} {t : Table α} {u : CompiledUnit}

def Decl.isImport : Decl → Bool
  | .importDecl _ => true
  | _ => false

/-- A program whose items have been permuted, imports and handlers each in their order. -/
structure Program.Reordered (p q : Program) : Prop where
  name : p.name = q.name
  items : p.decls.Perm q.decls
  imports : p.decls.filter isImport = q.decls.filter isImport
  handlers : handlers p = handlers q

lemma Program.Reordered.symm (h : p.Reordered q) : q.Reordered p :=
  ⟨h.name.symm, h.items.symm, h.imports.symm, h.handlers.symm⟩

/-! ### Imports -/

lemma Loaded.enter_congr (files : Files) (go : List String → Loaded → Program → Except CompileError Loaded)
    (chain : List String) (h : p.name = q.name) : enter files go chain p = enter files go chain q := by
  funext l path
  simp only [enter, h]

lemma Program.Reordered.importPaths (h : p.Reordered q) : Loaded.importPaths p = Loaded.importPaths q := by
  have hpaths : ∀ p : Program, Loaded.importPaths p = (p.decls.filter isImport).filterMap fun d =>
        match d with
        | .importDecl i => some i.path
        | _ => none := by
    intro p
    rw [Loaded.importPaths, filterMap_filter]
    congr 1
    funext d
    cases d <;> rfl
  rw [hpaths, hpaths, h.imports]

lemma Program.Reordered.load (h : p.Reordered q) (files : Files) : p.load files = q.load files := by
  simp only [Program.load, Loaded.visit, h.importPaths, h.name, Loaded.enter_congr files _ _ h.name]

/-! ### Definitions without duplicates -/

namespace Definitions

lemma find?_of_not_mem {defs : Definitions} {name : String} (h : (kind, name) ∉ defs.keys) :
    defs.find? kind name = none := by
  refine List.find?_eq_none.2 fun d hd hkey => h ?_
  simp only [Bool.and_eq_true, decide_eq_true_eq] at hkey
  exact mem_map.2 ⟨d, hd, Prod.ext hkey.1 hkey.2⟩

lemma declare_of_nodup {state : Definitions × List Problem} (h : (state.1 ++ (ofDecl? file d).toList).keys.Nodup) :
    declare file state d = (state.1 ++ (ofDecl? file d).toList, state.2) := by
  obtain ⟨defs, problems⟩ := state
  cases hnamed : d.named? with
  | none => simp [declare, ofDecl?, hnamed]
  | some named =>
    obtain ⟨kind, name, place⟩ := named
    have hfree : (kind, name) ∉ defs.keys := by
      rw [keys_append] at h
      intro hmem
      exact disjoint_of_nodup_append h hmem (by simp [ofDecl?, hnamed, keys])
    simp [declare, ofDecl?, hnamed, find?_of_not_mem hfree]

lemma foldl_declare_of_nodup : ∀ (ds : List Decl) {state : Definitions × List Problem},
    (state.1 ++ ds.filterMap (ofDecl? file)).keys.Nodup →
    ds.foldl (declare file) state = (state.1 ++ ds.filterMap (ofDecl? file), state.2)
  | [], _, _ => by simp
  | d :: ds, state, h => by
    have hsplit : (d :: ds).filterMap (ofDecl? file) = (ofDecl? file d).toList ++ ds.filterMap (ofDecl? file) := by
      rw [filterMap_cons]
      cases ofDecl? file d <;> rfl
    rw [hsplit, ← append_assoc] at h ⊢
    have hfirst : (state.1 ++ (ofDecl? file d).toList).keys.Nodup := by
      rw [keys_append] at h
      exact (nodup_append.1 h).1
    rw [foldl_cons, declare_of_nodup hfirst]
    exact foldl_declare_of_nodup ds h

lemma foldl_collect_of_nodup : ∀ (ps : List Program) {state : Definitions × List (String × Problem)},
    (state.1 ++ listed ps).keys.Nodup → ps.foldl collect state = (state.1 ++ listed ps, state.2)
  | [], _, _ => by simp [listed]
  | p :: ps, state, h => by
    have hsplit : listed (p :: ps) = p.decls.filterMap (ofDecl? p.name) ++ listed ps := rfl
    rw [hsplit, ← append_assoc] at h ⊢
    have hfirst : (state.1 ++ p.decls.filterMap (ofDecl? p.name)).keys.Nodup := by
      rw [keys_append] at h
      exact (nodup_append.1 h).1
    have hcollect : collect state p = (state.1 ++ p.decls.filterMap (ofDecl? p.name), state.2) := by
      rw [collect, foldl_declare_of_nodup p.decls hfirst]
      simp
    rw [foldl_cons, hcollect]
    exact foldl_collect_of_nodup ps h

lemma ofPrograms_of_nodup (h : (listed programs).keys.Nodup) : ofPrograms programs = (listed programs, []) :=
  foldl_collect_of_nodup programs h

variable {defs others : Definitions}

lemma find?_of_perm (hperm : defs.Perm others) (hkeys : defs.keys.Nodup) (kind : DefKind)
    (name : String) : defs.find? kind name = others.find? kind name := by
  have hothers : others.keys.Nodup := (hperm.map _).nodup_iff.1 hkeys
  cases hfind : others.find? kind name with
  | none =>
    refine find?_of_not_mem fun hmem => find?_eq_none hfind ?_
    exact (hperm.map _).mem_iff.1 hmem
  | some d =>
    have hkey := List.find?_some hfind
    simp only [Bool.and_eq_true, decide_eq_true_eq] at hkey
    rw [← hkey.1, ← hkey.2]
    exact find?_of_mem hkeys (hperm.mem_iff.2 (List.mem_of_find?_eq_some hfind))

lemma names_of_perm (hperm : defs.Perm others) (kind : DefKind) : defs.names kind = others.names kind := by
  have htrans : ∀ a b c : String, decide (a ≤ b) = true → decide (b ≤ c) = true → decide (a ≤ c) = true := by
    intro a b c hab hbc
    rw [decide_eq_true_eq] at hab hbc ⊢
    exact String.le_trans hab hbc
  have htotal : ∀ a b : String, (decide (a ≤ b) || decide (b ≤ a)) = true := by
    intro a b
    simpa using String.le_total a b
  refine List.Perm.eq_of_pairwise ?_ (pairwise_mergeSort htrans htotal _) (pairwise_mergeSort htrans htotal _) ?_
  · intro a b _ _ hab hba
    rw [decide_eq_true_eq] at hab hba
    exact String.le_antisymm hab hba
  · exact (mergeSort_perm _ _).trans (((hperm.filter _).map _).trans (mergeSort_perm _ _).symm)

lemma agree_of_perm (hperm : defs.Perm others) (hkeys : defs.keys.Nodup) : defs.Agree others where
  contains kind name := by rw [contains, find?_of_perm hperm hkeys, contains]
  names := names_of_perm hperm
  flowArity? name := by rw [flowArity?, find?_of_perm hperm hkeys, flowArity?]

end Definitions

/-! ### Programs without errors -/

namespace Analysis

lemma clean_iff (programs : List Program) : Clean programs ↔ (listed programs).keys.Nodup ∧ (∀ d ∈ decls programs,
      Harmless (checkDecl (listed programs) (globals programs) d)) ∧
    ¬ ∃ a, Relation.TransGen (Composes programs) a a := by
  constructor
  · intro h
    exact ⟨h.keys_listed, fun d hd => checked_of_clean h hd, h.acyclic⟩
  · rintro ⟨hkeys, hchecks, hacyclic⟩
    have hdefs := ofPrograms_of_nodup hkeys
    have hcycles : cycleProblems (listed programs) = [] := by
      have hnil := (agentCycles_eq_nil_iff programs).2 hacyclic
      rw [agentCycles, hdefs] at hnil
      rw [cycleProblems, hnil, filterMap_nil]
    rw [Clean, problems, hdefs]
    simp only [nil_append, hcycles, append_nil]
    intro q hq
    obtain ⟨_, hproblem, rfl⟩ := mem_map.1 hq
    obtain ⟨p, hp, hproblem⟩ := mem_flatMap.1 hproblem
    obtain ⟨q, hchecked, rfl⟩ := mem_map.1 hproblem
    obtain ⟨d, hd, hchecked⟩ := mem_flatMap.1 hchecked
    exact hchecks d (mem_flatMap.2 ⟨p, hp, hd⟩) q hchecked

lemma hasErrors_eq_false_iff : (analyze root imports).hasErrors = false ↔ Clean (root :: imports) :=
  ⟨clean_of_diagnostics, diagnostics_of_clean⟩

lemma foldl_startVariables (p : Program) (scope : Scope) :
    p.decls.foldl (fun scope d => scope.union (startVariables d)) scope =
      (handlers p).foldl (fun scope d => scope.union (startVariables d)) scope := by
  obtain ⟨name, version, ds⟩ := p
  induction ds generalizing scope with
  | nil => rfl
  | cons d ds ih =>
    cases d with
    | handler h => exact ih _
    | _ => exact ih _

end Analysis

/-! ### Permuted programs -/

namespace Program

variable {programs others : List Program} (h : List.Forall₂ Reordered programs others)

include h

lemma decls_of_reordered : (Lower.decls programs).Perm (Lower.decls others) := by
  induction h with
  | nil => exact .refl _
  | cons hp _ ih => exact hp.items.append ih

lemma listed_of_reordered : (Definitions.listed programs).Perm (Definitions.listed others) := by
  induction h with
  | nil => exact .refl _
  | @cons p q programs others hp _ ih =>
    have hfirst : (p.decls.filterMap (ofDecl? p.name)).Perm (q.decls.filterMap (ofDecl? q.name)) := by
      rw [hp.name]
      exact hp.items.filterMap _
    exact hfirst.append ih

lemma handlers_of_reordered : programs.flatMap Lower.handlers = others.flatMap Lower.handlers := by
  induction h with
  | nil => rfl
  | cons hp _ ih => rw [flatMap_cons, flatMap_cons, hp.handlers, ih]

lemma globals_of_reordered : globals programs = globals others := by
  have hscope : ∀ scope : Scope, programs.foldl (fun scope p => p.decls.foldl
        (fun scope d => scope.union (startVariables d)) scope) scope =
      others.foldl (fun scope p => p.decls.foldl (fun scope d => scope.union (startVariables d)) scope) scope := by
    induction h with
    | nil => exact fun _ => rfl
    | @cons p q programs others hp _ ih =>
      intro scope
      rw [foldl_cons, foldl_cons, foldl_startVariables, foldl_startVariables, hp.handlers]
      exact ih _
  exact hscope []

lemma agentOf?_of_reordered
    (hkeys : (Definitions.listed programs).keys.Nodup) : agentOf? programs = agentOf? others := by
  funext name
  have hfirst := decl_agentOf? programs name
  have hother := decl_agentOf? others name
  rw [find?_ofPrograms, find?_of_perm (listed_of_reordered h) hkeys] at hfirst
  rw [find?_ofPrograms, hfirst] at hother
  exact Option.map_injective (fun _ _ heq => agent.inj heq) hother

lemma clean_of_reordered (hclean : Analysis.Clean programs) : Analysis.Clean others := by
  rw [clean_iff] at hclean ⊢
  obtain ⟨hkeys, hchecks, hacyclic⟩ := hclean
  have hlisted := listed_of_reordered h
  refine ⟨(hlisted.map _).nodup_iff.1 hkeys, fun d hd => ?_, ?_⟩
  · rw [← checkDecl_of_agree (agree_of_perm hlisted hkeys), ← globals_of_reordered h]
    exact hchecks d ((decls_of_reordered h).mem_iff.2 hd)
  · have hcomposes : Composes others = Composes programs := by
      funext a b
      simp only [Composes, agentOf?_of_reordered h hkeys]
    rwa [hcomposes]

lemma forall₂_reordered_symm : List.Forall₂ Reordered others programs := by
  refine List.Forall₂.flip (h.imp fun _ _ hp => ?_)
  exact hp.symm

lemma full_of_reordered (hfull : ∀ p ∈ programs, p.Full) : ∀ p ∈ others, p.Full := by
  induction h with
  | nil => exact nofun
  | cons hp _ ih =>
    obtain ⟨hfirst, hrest⟩ := forall_mem_cons.1 hfull
    exact forall_mem_cons.2 ⟨fun d hd => hfirst d (hp.items.mem_iff.2 hd), ih hrest⟩

end Program

/-! ### Units -/

def Table.Ordered {α : Type} (t : Table α) : Prop := t.names.Pairwise (· < ·)

lemma Table.Ordered.insert (h : t.Ordered) (name : String) (a : α) : (t.insert name a).Ordered := by
  rw [Table.Ordered, Table.names_insert]
  exact pairwise_insertText h

lemma Table.Ordered.map {β : Type} (h : t.Ordered) (f : α → β) : Table.Ordered (t.map fun e => (e.1, f e.2)) := by
  rw [Table.Ordered, Table.names, map_map]
  exact h

lemma Table.Ordered.eq_of_perm {t' : Table α} (h : t.Ordered) (h' : t'.Ordered) (hperm : t.Perm t') : t = t' := by
  refine List.Perm.eq_of_pairwise ?_ (pairwise_map.1 h) (pairwise_map.1 h') hperm
  intro a b _ _ hab hba
  exact absurd (String.lt_trans hab hba) (String.lt_irrefl _)

namespace CompiledUnit

/-- All tables of a unit are sorted by name. -/
structure Ordered (u : CompiledUnit) : Prop where
  models : u.models.Ordered
  schemas : u.schemas.Ordered
  tools : u.tools.Ordered
  retries : u.retries.Ordered
  timeouts : u.timeouts.Ordered
  guardrails : u.guardrails.Ordered
  prompts : u.prompts.Ordered
  agents : u.agents.Ordered
  flows : u.flows.Ordered

/-- Units with the same tables, flows and handlers, line numbers aside. -/
structure SameTables (u v : CompiledUnit) : Prop where
  models : u.models = v.models
  schemas : u.schemas = v.schemas
  tools : u.tools = v.tools
  retries : u.retries = v.retries
  timeouts : u.timeouts = v.timeouts
  guardrails : u.guardrails = v.guardrails
  prompts : u.prompts = v.prompts
  agents : u.agents = v.agents
  flows : u.flows.map (fun e => (e.1, e.2.bare)) = v.flows.map fun e => (e.1, e.2.bare)
  handlers : ∀ event, (u.handler? event).map Instr.bareAll = (v.handler? event).map Instr.bareAll

lemma Ordered.enrol (h : u.Ordered) (i : Instr) : (Assembly.enrol u i).Ordered := by
  obtain ⟨line, op, body⟩ := i
  cases op with
  | model m => exact { h with models := h.models.insert .. }
  | schema s => exact { h with schemas := h.schemas.insert .. }
  | tool t => exact { h with tools := h.tools.insert .. }
  | retry r => exact { h with retries := h.retries.insert .. }
  | timeout t => exact { h with timeouts := h.timeouts.insert .. }
  | guardrail g => exact { h with guardrails := h.guardrails.insert .. }
  | prompt p => exact { h with prompts := h.prompts.insert .. }
  | agent a => exact { h with agents := h.agents.insert .. }
  | flow name params =>
    rw [Assembly.enrol]
    split
    · exact { h with flows := h.flows.insert .. }
    · exact h
  | handler event => exact { h with }
  | _ => exact h

lemma ordered_of_assemble {hash : String} {listing : Listing} {map : SourceMap}
    (h : assemble hash listing map = .ok u) : u.Ordered := by
  obtain ⟨top, -, hu⟩ := Except.bind_eq_ok.1 h
  rw [← Assembly.foldl_enrol_of_register hu]
  have hempty : Ordered ⟨[], [], [], [], [], [], [], [], [], [], hash, listing, map⟩ := by
    constructor <;> exact List.Pairwise.nil
  clear hu
  generalize (⟨[], [], [], [], [], [], [], [], [], [], hash, listing, map⟩ : CompiledUnit) = u at hempty
  induction top generalizing u with
  | nil => exact hempty
  | cons i top ih => exact ih _ (hempty.enrol i)

lemma Ordered.table_eq {t' : Table α} (ht : t.Ordered) (ht' : t'.Ordered) {ds es : List Decl} (hperm : ds.Perm es)
    (h : t.Holds (ds.filterMap f)) (h' : t'.Holds (es.filterMap f)) : t = t' :=
  ht.eq_of_perm ht' (h.2.trans ((hperm.filterMap f).trans h'.2.symm))

/-- Units that are made of the same declarations, with the handlers in the same order, have the same
tables. -/
lemma Lowers.sameTables {v : CompiledUnit} (hu : u.Lowers ds) (hv : v.Lowers es) (hordered : u.Ordered)
    (hordered' : v.Ordered) (hperm : ds.Perm es)
    (hhandlers : ∀ event, ds.filterMap (Decl.handler? event) = es.filterMap (Decl.handler? event)) :
    u.SameTables v where
  models := Ordered.table_eq hordered.models hordered'.models hperm hu.models hv.models
  schemas := Ordered.table_eq hordered.schemas hordered'.schemas hperm hu.schemas hv.schemas
  tools := Ordered.table_eq hordered.tools hordered'.tools hperm hu.tools hv.tools
  retries := Ordered.table_eq hordered.retries hordered'.retries hperm hu.retries hv.retries
  timeouts := Ordered.table_eq hordered.timeouts hordered'.timeouts hperm hu.timeouts hv.timeouts
  guardrails :=
    Ordered.table_eq hordered.guardrails hordered'.guardrails hperm hu.guardrails hv.guardrails
  prompts := Ordered.table_eq hordered.prompts hordered'.prompts hperm hu.prompts hv.prompts
  agents := Ordered.table_eq hordered.agents hordered'.agents hperm hu.agents hv.agents
  flows := Ordered.table_eq (hordered.flows.map _) (hordered'.flows.map _) hperm hu.flows hv.flows
  handlers event := by
    rw [hu.handlers, hv.handlers, handlerInstrs, handlerInstrs, hhandlers]

end CompiledUnit

section

variable {root root' : Program} {imports imports' : List Program}

lemma CompiledUnit.sameTables_of_reordered (h : List.Forall₂ Program.Reordered (root :: imports) (root' :: imports'))
    (hclean : Analysis.Clean (root :: imports)) (config : CompilerConfig) {hash hash' : String} {map map' : SourceMap}
    (hu : assemble hash (ofPlaced (lowered config root imports)) map = .ok u)
    (hv : assemble hash' (ofPlaced (lowered config root' imports')) map' = .ok v) : u.SameTables v := by
  have hclean' := clean_of_reordered h hclean
  have hfull := (assemble_ok_iff_full hclean _ _ _).1 ⟨u, hu⟩
  have hfull' := full_of_reordered h hfull
  obtain ⟨w, hw, hlowers⟩ := assemble_of_clean hclean hfull config.sourceComments hash map
  obtain ⟨w', hw', hlowers'⟩ := assemble_of_clean hclean' hfull' config.sourceComments hash' map'
  obtain rfl := Except.ok.inj (hu.symm.trans hw)
  obtain rfl := Except.ok.inj (hv.symm.trans hw')
  refine hlowers.sameTables hlowers' (ordered_of_assemble hu) (ordered_of_assemble hv)
    (decls_of_reordered h) fun event => ?_
  rw [filterMap_handler, filterMap_handler, handlers_of_reordered h]

/-- Permuting the items of programs, imports and handlers each in their order, keeps what is imported and
whether there is an error. Programs without errors assemble exactly when the permuted ones do, which is the case
where no block is empty, and then to the same tables, flows and handlers, line numbers aside. -/
theorem definitions_in_any_order (h : List.Forall₂ Program.Reordered (root :: imports) (root' :: imports')) :
    (∀ files, root.load files = root'.load files) ∧
    (analyze root imports).hasErrors = (analyze root' imports').hasErrors ∧
    ((analyze root imports).hasErrors = false →
      ∀ (config : CompilerConfig) (hash hash' : String) (map map' : SourceMap),
        ((∃ u, assemble hash (ofPlaced (lowered config root imports)) map = .ok u) ↔ ∀ p ∈ root :: imports, p.Full) ∧
        ((∃ v, assemble hash' (ofPlaced (lowered config root' imports')) map' =
            .ok v) ↔ ∀ p ∈ root :: imports, p.Full) ∧
        ∀ u v, assemble hash (ofPlaced (lowered config root imports)) map = .ok u →
          assemble hash' (ofPlaced (lowered config root' imports')) map' = .ok v →
          u.SameTables v) := by
  have hsymm := forall₂_reordered_symm h
  refine ⟨(forall₂_cons.1 h).1.load, ?_, fun hvalid config hash hash' map map' => ?_⟩
  · rw [Bool.eq_iff_iff, ← not_iff_not, Bool.not_eq_true, Bool.not_eq_true,
      hasErrors_eq_false_iff, hasErrors_eq_false_iff]
    exact ⟨clean_of_reordered h, clean_of_reordered hsymm⟩
  · have hclean := hasErrors_eq_false_iff.1 hvalid
    refine ⟨assemble_ok_iff_full hclean _ _ _, ?_, fun u v => sameTables_of_reordered h hclean config⟩
    refine (assemble_ok_iff_full (clean_of_reordered h hclean) _ _ _).trans ?_
    exact ⟨full_of_reordered hsymm, full_of_reordered h⟩

end

def modelAndPrompt : List Decl :=
  [.model ⟨⟨"fast", default⟩, ⟨"local/fast", default⟩, [], default⟩,
    .prompt ⟨⟨"ask", default⟩, ⟨"Tell me.", default⟩, some ⟨"fast", default⟩, none, none, default⟩]

theorem definitions_in_any_order_prompt : (analyze ⟨"main", none, modelAndPrompt⟩ []).hasErrors = false ∧
    (analyze ⟨"main", none, modelAndPrompt.reverse⟩ []).hasErrors = false ∧
    ∃ u v : CompiledUnit, assemble "" (ofPlaced (lowered {} ⟨"main", none, modelAndPrompt⟩ []))
        default = .ok u ∧
      assemble "" (ofPlaced (lowered {} ⟨"main", none, modelAndPrompt.reverse⟩ []))
        default = .ok v ∧ u.SameTables v := by
  have hreordered : List.Forall₂ Program.Reordered [⟨"main", none, modelAndPrompt⟩]
      [⟨"main", none, modelAndPrompt.reverse⟩] :=
    .cons ⟨rfl, (reverse_perm _).symm, rfl, rfl⟩ .nil
  have hclean : Analysis.Clean [⟨"main", none, modelAndPrompt⟩] := by
    have hproblems : problems [⟨"main", none, modelAndPrompt⟩] = [] := by rfl
    rw [Analysis.Clean, hproblems]
    exact forall_mem_nil _
  have hfull : ∀ p ∈ [(⟨"main", none, modelAndPrompt⟩ : Program)], p.Full := by
    simp [Program.Full, modelAndPrompt, Decl.Full]
  have hvalid := hasErrors_eq_false_iff.2 hclean
  obtain ⟨-, hsame, hunits⟩ := definitions_in_any_order hreordered
  obtain ⟨hfirst, hother, htables⟩ := hunits hvalid {} "" "" default default
  obtain ⟨u, hu⟩ := hfirst.2 hfull
  obtain ⟨v, hv⟩ := hother.2 hfull
  exact ⟨hvalid, hsame ▸ hvalid, u, v, hu, hv, htables u v hu hv⟩

end Workflow
