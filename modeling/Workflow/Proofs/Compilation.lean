import Workflow.Compile.Basic
import Workflow.Proofs.Evaluation
import Workflow.Proofs.Loading

/-!
Compilation of programs without errors. The listing has each declaration once, under its name; folded and
registered, it gives the unit that is made of the declarations. Assembly never fails on such a listing.
-/

namespace Workflow

open List Definitions Analysis Program Lower Diagnostic Assembly Listing Decl Digest

variable {name file : String} {d : Decl} {programs : List Program} {config : CompilerConfig} {compiled : Compiled}

/-! ### Definitions without duplicates -/

namespace Definitions

open Analysis (Harmless harmless_append)

variable {defs : Definitions} {state : Definitions × List Problem}

def ofDecl? (file : String) (d : Decl) : Option Definition :=
  d.named?.map fun (kind, name, place) => ⟨kind, name, file, place, d⟩

def listed (programs : List Program) : Definitions :=
  programs.flatMap fun p => p.decls.filterMap (ofDecl? p.name)

def keys (defs : Definitions) : List (DefKind × String) := defs.map fun d => (d.kind, d.name)

lemma find?_eq_none {kind : DefKind} (h : defs.find? kind name = none) : (kind, name) ∉ defs.keys := by
  intro hmem
  obtain ⟨d, hd, heq⟩ := mem_map.1 hmem
  cases heq
  simpa using List.find?_eq_none.1 h d hd

lemma find?_of_mem (hkeys : defs.keys.Nodup) {d : Definition} (hd : d ∈ defs) :
    defs.find? d.kind d.name = some d := by
  cases hfind : defs.find? d.kind d.name with
  | none => exact absurd (mem_map.2 ⟨d, hd, rfl⟩) (find?_eq_none hfind)
  | some other =>
    have hother := List.find?_some hfind
    simp only [Bool.and_eq_true, decide_eq_true_eq] at hother
    have hmem := List.mem_of_find?_eq_some hfind
    rw [inj_on_of_nodup_map hkeys hmem hd (Prod.ext hother.1 hother.2)]

lemma keys_append (defs others : Definitions) : keys (defs ++ others) = defs.keys ++ others.keys :=
  map_append

lemma keys_declare (h : state.1.keys.Nodup) : (declare file state d).1.keys.Nodup := by
  obtain ⟨defs, problems⟩ := state
  unfold declare
  dsimp only
  split
  · exact h
  · split
    · next hfind =>
      rw [keys_append]
      exact nodup_append_comm.1 (nodup_cons.2 ⟨find?_eq_none hfind, h⟩)
    · exact h

lemma declare_eq (h : Harmless (declare file state d).2) : Harmless state.2 ∧
      (declare file state d).1 = state.1 ++ (ofDecl? file d).toList := by
  obtain ⟨defs, problems⟩ := state
  unfold declare at h ⊢
  cases hnamed : d.named? with
  | none => simp_all [ofDecl?]
  | some named =>
    obtain ⟨kind, name, place⟩ := named
    cases hfind : defs.find? kind name with
    | none =>
      simp only [hnamed, hfind] at h ⊢
      exact ⟨h, by simp [ofDecl?, hnamed]⟩
    | some first =>
      simp only [hnamed, hfind, harmless_append] at h
      exact absurd rfl (harmless_singleton.1 h.2)

lemma foldl_declare_eq : ∀ (ds : List Decl) {state}, Harmless (ds.foldl (declare file) state).2 → Harmless state.2 ∧
      (ds.foldl (declare file) state).1 = state.1 ++ ds.filterMap (ofDecl? file)
  | [], _, h => ⟨h, by simp⟩
  | d :: ds, state, h => by
    obtain ⟨hd, hds⟩ := foldl_declare_eq ds h
    obtain ⟨hstate, hfirst⟩ := declare_eq hd
    refine ⟨hstate, ?_⟩
    rw [foldl_cons, hds, hfirst, append_assoc, filterMap_cons]
    cases ofDecl? file d <;> rfl

lemma keys_foldl_declare : ∀ (ds : List Decl) {state : Definitions × List Problem}, state.1.keys.Nodup →
    (ds.foldl (declare file) state).1.keys.Nodup
  | [], _, h => h
  | _ :: ds, _, h => keys_foldl_declare ds (keys_declare h)

lemma foldl_collect_eq : ∀ (ps : List Program) {state},
    Harmless ((ps.foldl collect state).2.map (·.2)) → Harmless (state.2.map (·.2)) ∧
      (ps.foldl collect state).1 = state.1 ++ listed ps
  | [], _, h => ⟨h, by simp [listed]⟩
  | p :: ps, state, h => by
    obtain ⟨hp, hps⟩ := foldl_collect_eq ps h
    rw [collect, map_append, map_map, harmless_append] at hp
    have hproblems : Harmless (p.decls.foldl (declare p.name) (state.1, [])).2 := by
      simpa [Function.comp_def] using hp.2
    refine ⟨hp.1, ?_⟩
    rw [foldl_cons, hps, collect, (foldl_declare_eq p.decls hproblems).2, append_assoc]
    rfl

lemma keys_foldl_collect : ∀ (ps : List Program) {state : Definitions × List (String × Problem)},
    state.1.keys.Nodup → (ps.foldl collect state).1.keys.Nodup
  | [], _, h => h
  | p :: ps, _, h => keys_foldl_collect ps (keys_foldl_declare p.decls h)

lemma keys_ofPrograms (programs : List Program) : (ofPrograms programs).1.keys.Nodup :=
  keys_foldl_collect programs nodup_nil

lemma ofPrograms_eq (h : Harmless ((ofPrograms programs).2.map (·.2))) :
    (ofPrograms programs).1 = listed programs := by
  rw [ofPrograms, (foldl_collect_eq programs h).2, nil_append]

lemma faithful_listed (programs : List Program) : (listed programs).Faithful := by
  intro d hd
  obtain ⟨p, -, hd⟩ := mem_flatMap.1 hd
  obtain ⟨decl, -, hd⟩ := mem_filterMap.1 hd
  obtain ⟨⟨kind, name, place⟩, hnamed, rfl⟩ := Option.map_eq_some_iff.1 hd
  exact hnamed

end Definitions

/-! ### Listings of declarations -/

namespace Lower

lemma flat_placed (comments : Bool) (file name : String) (d : Decl) :
    ((placed comments file name d).map (·.line)).filterMap Line.flat? = (decl name d).map Step.flat := by
  have hops : (((decl name d).map fun s : Step =>
      (⟨⟨s.depth, .op s.op⟩, some (file, s.span)⟩ : Placed)).map (·.line)).filterMap Line.flat? =
      (decl name d).map Step.flat := by
    rw [map_map, filterMap_map, ← filterMap_eq_map]
    rfl
  rw [placed, map_append, filterMap_append]
  cases comments <;> exact hops

/-- The declarations of a listing in their order, each with its name: definitions, then handlers. -/
def order (defs : Definitions) (programs : List Program) : List (String × Decl) :=
  defs.map (fun d => (d.name, d.decl)) ++ programs.flatMap fun p => (handlers p).map fun d => ("", d)

lemma flat_lines (comments : Bool) (defs : Definitions) (programs : List Program) :
    (ofPlaced (lines comments defs programs)).flat.map FlatOp.bare =
      ((order defs programs).flatMap fun e => decl e.1 e.2).map Step.flat := by
  rw [flat_bare, ofPlaced, lines, order]
  simp only [map_append, map_flatMap, filterMap_append, filterMap_flatMap,
    flatMap_append, flatMap_map, flatMap_assoc, flat_placed]

end Lower

/-! ### Programs without errors -/

namespace Analysis

def Clean (programs : List Program) : Prop := Harmless ((problems programs).map (·.2))

lemma clean_of_diagnostics (h : (analyze root imports).hasErrors = false) : Clean (root :: imports) := by
  intro p hp
  obtain ⟨⟨file, q⟩, hq, rfl⟩ := mem_map.1 hp
  have hd := any_eq_false.1 h (q.toDiagnostic file) (mem_mergeSort.2 (mem_map.2 ⟨(file, q), hq, rfl⟩))
  intro hsevere
  exact hd (decide_eq_true hsevere)

lemma Clean.ofPrograms_eq (h : Clean programs) :
    (Definitions.ofPrograms programs).1 = Definitions.listed programs := by
  rw [Clean, problems, map_append, map_append, harmless_append, harmless_append] at h
  exact Definitions.ofPrograms_eq h.1.1

lemma Clean.keys_listed (h : Clean programs) : (listed programs).keys.Nodup :=
  h.ofPrograms_eq ▸ keys_ofPrograms programs

lemma Clean.checkDecl (h : Clean programs) {p : Program} (hp : p ∈ programs) (hd : d ∈ p.decls) :
    Harmless (checkDecl (listed programs) (globals programs) d) := by
  intro q hq
  refine h q (mem_map.2 ⟨(p.name, q), ?_, rfl⟩)
  rw [← h.ofPrograms_eq] at hq
  refine mem_append_left _ (mem_append_right _ (mem_flatMap.2 ⟨p, hp, ?_⟩))
  exact mem_map.2 ⟨q, mem_flatMap.2 ⟨d, hd, hq⟩, rfl⟩

end Analysis

namespace Lower

/-- The declarations of some programs, file after file. -/
def decls (programs : List Program) : List Decl := programs.flatMap (·.decls)

lemma mem_handlers (h : d ∈ handlers p) : d ∈ p.decls ∧ ∃ handler, d = .handler handler := by
  obtain ⟨hmem, hkind⟩ := mem_filter.1 h
  refine ⟨hmem, ?_⟩
  cases d with
  | handler handler => exact ⟨handler, rfl⟩
  | _ => cases hkind

lemma mem_listed {d : Definition} (h : d ∈ listed programs) : ∃ p ∈ programs, d.decl ∈ p.decls := by
  obtain ⟨p, hp, hd⟩ := mem_flatMap.1 h
  obtain ⟨decl, hmem, heq⟩ := mem_filterMap.1 hd
  obtain ⟨named, -, rfl⟩ := Option.map_eq_some_iff.1 heq
  exact ⟨p, hp, hmem⟩

lemma mem_order {e : String × Decl} (h : e ∈ order (listed programs) programs) :
    (∃ p ∈ programs, e.2 ∈ p.decls) ∧ ∀ a, e.2 = .agent a → e.1 = a.effectiveName := by
  rcases mem_append.1 h with h | h
  · obtain ⟨d, hd, rfl⟩ := mem_map.1 h
    refine ⟨mem_listed hd, fun a ha => ?_⟩
    have hnamed := faithful_listed programs d hd
    rw [show d.decl = .agent a from ha] at hnamed
    exact (congrArg (fun n => n.2.1) (Option.some.inj hnamed)).symm
  · obtain ⟨p, hp, he⟩ := mem_flatMap.1 h
    obtain ⟨d, hd, rfl⟩ := mem_map.1 he
    obtain ⟨hmem, handler, rfl⟩ := mem_handlers hd
    exact ⟨⟨p, hp, hmem⟩, fun a ha => Decl.noConfusion ha⟩

lemma fold_lines (hfull : ∀ p ∈ programs, p.Full) (comments : Bool) : ∃ top, fold 0
        (ofPlaced (lines comments (listed programs) programs)).flat = .ok top ∧
      Instr.bareAll top = (order (listed programs) programs).flatMap fun e => e.2.instrs e.1 := by
  refine (fold_bare _ _).1 ?_
  rw [flat_lines]
  refine (fold_decls _).2 ⟨fun e he => ?_, rfl⟩
  obtain ⟨⟨p, hp, hd⟩, -⟩ := mem_order he
  exact hfull p hp e.2 hd

lemma map_order (programs : List Program) : (order (listed programs) programs).map (·.2) =
      (decls programs).filter (·.named?.isSome) ++ programs.flatMap handlers := by
  have hnamed : ∀ (file : String) (ds : List Decl), (ds.filterMap (ofDecl? file)).map
      (·.decl) = ds.filter (·.named?.isSome) := by
    intro file ds
    rw [map_filterMap, ← filterMap_eq_filter]
    congr 1
    funext d
    cases h : d.named? <;> simp [ofDecl?, Option.guard, h]
  simp only [order, decls, Definitions.listed, map_append, map_map, map_flatMap, filter_flatMap, Function.comp_def, hnamed, map_id']

lemma filterMap_order_named {β : Type} {f : Decl → Option β}
    (hf : ∀ d, d.named? = none → f d = none) (programs : List Program) :
    ((order (listed programs) programs).map (·.2)).filterMap f = (decls programs).filterMap f := by
  have hhandlers : (programs.flatMap handlers).filterMap f = [] := by
    refine filterMap_eq_nil_iff.2 fun d hd => ?_
    obtain ⟨p, -, hd⟩ := mem_flatMap.1 hd
    obtain ⟨-, handler, rfl⟩ := mem_handlers hd
    exact hf _ rfl
  rw [map_order, filterMap_append, hhandlers, append_nil, filterMap_filter]
  congr 1
  funext d
  cases h : d.named? <;> simp [h, hf d]

lemma filterMap_handler (event : HandlerEvent) (programs : List Program) :
    (decls programs).filterMap (handler? event) = (programs.flatMap handlers).filterMap (handler? event) := by
  rw [decls, filterMap_flatMap, filterMap_flatMap]
  congr 1
  funext p
  rw [handlers, filterMap_filter]
  congr 1
  funext d
  cases d <;> rfl

lemma filterMap_order_handler (event : HandlerEvent) (programs : List Program) :
    ((order (listed programs) programs).map (·.2)).filterMap (handler? event) =
      (decls programs).filterMap (handler? event) := by
  have hnamed : ((decls programs).filter (·.named?.isSome)).filterMap (handler? event) = [] := by
    refine filterMap_eq_nil_iff.2 fun d hd => ?_
    have hd := (mem_filter.1 hd).2
    cases d with
    | handler handler => cases hd
    | _ => rfl
  rw [map_order, filterMap_append, hnamed, nil_append, filterMap_handler]

lemma keys_decls (programs : List Program) : (decls programs).filterMap key? = (listed programs).keys := by
  rw [decls, Definitions.keys, Definitions.listed, map_flatMap, filterMap_flatMap]
  congr 1
  funext p
  rw [map_filterMap]
  congr 1
  funext d
  rw [ofDecl?, Option.map_map]
  rfl

end Lower

namespace CompiledUnit

lemma Lowers.of_order {u : CompiledUnit} (h : u.Lowers ((order (listed programs) programs).map (·.2))) :
    u.Lowers (decls programs) := by
  have hnamed : ∀ {β : Type} (f : Decl → Option β), (∀ d, d.named? = none → f d = none) → _ :=
    fun f hf => filterMap_order_named hf programs
  obtain ⟨m, s, t, r, l, g, p, a, f, e, hs⟩ := h
  rw [hnamed _ (by rintro (_ | _) h <;> cases h <;> rfl)] at m s t r l g p a f
  refine ⟨m, s, t, r, l, g, p, a, f, e, fun event => ?_⟩
  rw [hs, handlerInstrs, handlerInstrs, filterMap_order_handler]

lemma lowers_nil (hash : String) (listing : Listing) (map : SourceMap) :
    Lowers ⟨[], [], [], [], [], [], [], [], [], [], hash, listing, map⟩ [] := by
  constructor <;> first | exact ⟨nodup_nil, .refl _⟩ | exact nodup_nil | exact fun _ => rfl

lemma assemble_of_clean (hclean : Analysis.Clean programs) (hfull : ∀ p ∈ programs, p.Full) (comments : Bool)
    (hash : String) (map : SourceMap) :
    ∃ u, assemble hash (ofPlaced (lines comments (ofPrograms programs).1 programs)) map = .ok u ∧
      u.Lowers (decls programs) := by
  rw [hclean.ofPrograms_eq]
  obtain ⟨top, htop, hbare⟩ := fold_lines hfull comments
  have hkeys : (([] ++ (order (listed programs) programs).map Prod.snd).filterMap key?).Nodup := by
    rw [nil_append, filterMap_order_named (by simp [key?]), keys_decls]
    exact hclean.keys_listed
  obtain ⟨u, hu, hlowers⟩ := (lowers_nil hash _ map).register_all
    (faithful_listed programs) _ (fun e he => (mem_order he).2)
    (fun e he => by
      obtain ⟨⟨p, hp, hd⟩, -⟩ := mem_order he
      exact hclean.checkDecl hp hd) hkeys hbare
  refine ⟨u, ?_, hlowers.of_order⟩
  rw [assemble, htop]
  exact hu

end CompiledUnit

section

variable {files : Files} {source : String} {root : Program} {loaded : Loaded}

lemma full_of_load (hroot : ofSource source name = .ok root)
    (hloaded : root.load files = .ok loaded) : ∀ p ∈ root :: loaded.imports, p.Full := by
  rintro p (_ | ⟨_, hp⟩)
  · exact ofSource_full hroot
  · exact load_full hloaded p hp

lemma compile_eq (hroot : ofSource source name = .ok root)
    (hloaded : root.load files = .ok loaded) (config : CompilerConfig) :
    compile config files source name =
      if (loaded.diagnostics ++ (analyze root loaded.imports).diagnostics).any isError then
        .error (.semantic (orderDiagnostics name (loaded.diagnostics ++ (analyze root loaded.imports).diagnostics)))
      else
        match CompiledUnit.assemble (ofText source) (ofPlaced (lowered config root loaded.imports))
            (SourceMap.ofPlaced (generatedFileId name (ofText source)) name (lowered config root loaded.imports)) with
        | .error e => .error (.assembly e)
        | .ok unit =>
          .ok ⟨unit, name, (Loaded.importPaths root).map (·.node), loaded.fingerprints⟩ := by
  rw [compile, hroot]
  simp only [bind, Except.bind, hloaded]
  split <;> rfl

lemma compile_of_clean (hroot : ofSource source name = .ok root) (hloaded : root.load files = .ok loaded)
    (hclean : (loaded.diagnostics ++ (analyze root loaded.imports).diagnostics).any
      isError = false) (config : CompilerConfig) :
    Analysis.Clean (root :: loaded.imports) ∧ ∃ u, u.Lowers (decls (root :: loaded.imports)) ∧
      compile config files source name =
        .ok ⟨u, name, (Loaded.importPaths root).map (·.node), loaded.fingerprints⟩ := by
  have hanalysis : (analyze root loaded.imports).hasErrors = false := by
    rw [any_append, Bool.or_eq_false_iff] at hclean
    exact hclean.2
  refine ⟨clean_of_diagnostics hanalysis, ?_⟩
  obtain ⟨u, hu, hlowers⟩ := CompiledUnit.assemble_of_clean
    (clean_of_diagnostics hanalysis) (full_of_load hroot hloaded) config.sourceComments
    (ofText source) (SourceMap.ofPlaced (generatedFileId name (ofText source)) name
      (lowered config root loaded.imports))
  refine ⟨u, hlowers, ?_⟩
  rw [← lowered] at hu
  rw [compile_eq hroot hloaded, hclean, if_neg Bool.false_ne_true, hu]

lemma exists_of_compile (h : compile config files source name = .ok compiled) : ∃ root loaded,
      ofSource source name = .ok root ∧ root.load files = .ok loaded := by
  unfold compile at h
  obtain ⟨root, hroot, h⟩ := Except.bind_eq_ok.1 h
  obtain ⟨loaded, hloaded, -⟩ := Except.bind_eq_ok.1 h
  exact ⟨root, loaded, hroot, hloaded⟩

lemma noErrors_of_compile (hroot : ofSource source name = .ok root)
    (hloaded : root.load files = .ok loaded) (h : compile config files source name = .ok compiled) :
    (loaded.diagnostics ++ (analyze root loaded.imports).diagnostics).any isError =
      false := by
  refine Bool.eq_false_iff.2 fun herror => ?_
  rw [compile_eq hroot hloaded, if_pos herror] at h
  cases h

lemma lowers_of_compile (hroot : ofSource source name = .ok root)
    (hloaded : root.load files = .ok loaded) (h : compile config files source name = .ok compiled) :
    Analysis.Clean (root :: loaded.imports) ∧ compiled.unit.Lowers (decls (root :: loaded.imports)) := by
  have hclean := noErrors_of_compile hroot hloaded h
  obtain ⟨hanalysis, u, hlowers, hu⟩ := compile_of_clean hroot hloaded hclean config
  cases hu.symm.trans h
  exact ⟨hanalysis, hlowers⟩

end

lemma Except.of_any {ε α : Type} {x : Except ε α} {p : α → Bool} (h : x.toOption.any p = true) :
    ∃ a, x = .ok a ∧ p a = true := by
  cases x with
  | ok a => exact ⟨a, rfl, h⟩
  | error e => cases h

/-- Whether a source loads and compiles without errors, and to something of a kind. -/
def Program.compilesTo (files : Files) (source name : String) (p : Program → Loaded → Compiled → Bool) : Bool :=
  (ofSource source name).toOption.any fun root => (root.load files).toOption.any fun loaded =>
    let lines := lowered {} root loaded.imports
    let listing := ofPlaced lines
    let map := SourceMap.ofPlaced (generatedFileId name (ofText source)) name lines
    !(loaded.diagnostics ++ (analyze root loaded.imports).diagnostics).any isError
    && (foldWithin listing.flat.length 0 listing.flat).toOption.any fun top =>
      p root loaded ⟨top.foldl enrol ⟨[], [], [], [], [], [], [], [], [], [], ofText source, listing, map⟩,
        name, (Loaded.importPaths root).map (·.node), loaded.fingerprints⟩

lemma Program.exists_of_compilesTo {files : Files} {source : String} {p : Program → Loaded → Compiled → Bool}
    (h : compilesTo files source name p = true) : ∃ root loaded compiled, ofSource source name = .ok root ∧
      root.load files = .ok loaded ∧ compile {} files source name = .ok compiled ∧
      p root loaded compiled = true := by
  obtain ⟨root, hroot, h⟩ := Except.of_any h
  obtain ⟨loaded, hloaded, h⟩ := Except.of_any h
  rw [Bool.and_eq_true, Bool.not_eq_true'] at h
  obtain ⟨hclean, h⟩ := h
  obtain ⟨-, u, -, hcompile⟩ := compile_of_clean hroot hloaded hclean {}
  refine ⟨root, loaded, _, hroot, hloaded, hcompile, ?_⟩
  rw [compile_eq hroot hloaded, hclean, if_neg Bool.false_ne_true] at hcompile
  split at hcompile
  · cases hcompile
  · next hunit =>
    cases hcompile
    obtain ⟨top, htop, hu⟩ := Except.bind_eq_ok.1 hunit
    rw [foldWithin_eq .refl, htop] at h
    rw [← foldl_enrol_of_register hu]
    exact h

/-- A source with a variable of the start, a flow that calls itself and has a failure block, and a handler of
replies. -/
def sampleSource : String :=
  "on start do\n  $n = 2\nend\nflow main $x:\n  on failure do\n    log $error\n  end\n"
    ++ "  run flow main with $n\non output do\n  log $n\nend\n"

/-- What the sample compiles to: a unit that has the flow, and neither guardrails nor schemas. -/
structure Sample (root : Program) (loaded : Loaded) (compiled : Compiled) (f : FlowUnit) : Prop where
  parses : ofSource sampleSource "main" = .ok root
  loads : root.load [] = .ok loaded
  compiles : compile {} [] sampleSource "main" = .ok compiled
  globals : globals (root :: loaded.imports) = ["n"]
  guardrails : compiled.unit.guardrails = []
  schemas : compiled.unit.schemas = []
  flow : compiled.unit.flows.get? "main" = some f
  params : f.params.length = 1

lemma exists_sample : ∃ root loaded compiled f, Sample root loaded compiled f := by
  obtain ⟨root, loaded, compiled, hroot, hloaded, hcompiled, h⟩ := exists_of_compilesTo
    (show compilesTo [] sampleSource "main" (fun root loaded compiled =>
      decide (globals (root :: loaded.imports) = ["n"])
      && compiled.unit.guardrails.isEmpty && compiled.unit.schemas.isEmpty
      && (compiled.unit.flows.get? "main").any (·.params.length = 1)) = true by decide +kernel)
  simp only [Bool.and_eq_true, decide_eq_true_eq, List.isEmpty_iff, Option.any_eq_true] at h
  obtain ⟨⟨⟨hglobals, hguardrails⟩, hschemas⟩, f, hf, hparams⟩ := h
  exact ⟨root, loaded, compiled, f, hroot, hloaded, hcompiled, hglobals, hguardrails, hschemas, hf, hparams⟩

/-- Compilation fails in no other way than by a source that does not parse, imports that do not load, or an
error that is reported: all else assembles, with or without comments, and the unit is made of the declarations. -/
theorem compile_lowers {files : Files} {source name : String} {root : Program} {loaded : Loaded}
    (hroot : ofSource source name = .ok root) (hloaded : root.load files = .ok loaded)
    (hclean : (loaded.diagnostics ++ (Analysis.analyze root loaded.imports).diagnostics).any
      isError = false) (config : CompilerConfig) :
    ∃ compiled, compile config files source name = .ok compiled ∧
      compiled.unit.Lowers ((root :: loaded.imports).flatMap (·.decls)) := by
  obtain ⟨-, u, hlowers, hu⟩ := compile_of_clean hroot hloaded hclean config
  exact ⟨_, hu, hlowers⟩

theorem compile_lowers_sample : ∃ root loaded, ofSource sampleSource "main" = .ok root ∧
    root.load [] = .ok loaded ∧ (loaded.diagnostics ++
      (Analysis.analyze root loaded.imports).diagnostics).any isError = false ∧
    ∃ compiled, compile {} [] sampleSource "main" = .ok compiled ∧
      compiled.unit.Lowers ((root :: loaded.imports).flatMap (·.decls)) := by
  obtain ⟨root, loaded, compiled, f, h⟩ := exists_sample
  have hclean := noErrors_of_compile h.parses h.loads h.compiles
  exact ⟨root, loaded, h.parses, h.loads, hclean, compile_lowers h.parses h.loads hclean {}⟩

end Workflow
