import Workflow.Proofs.Agreement
import Workflow.Proofs.Following

/-!
Names of files are labels: what is a problem, which operations a listing has and what it assembles to is decided
by the declarations alone. A source that compiles under one name therefore compiles under another to the same
tables, if its imports load there. A session relies on this, but looks at the imports only: where the name is
that of an imported file, loading leads back to it.
-/

namespace Workflow

open List Definitions Program Definition Session Listing CompiledUnit SourceMap Workflow.Path

def Program.unnamed (p : Program) : Program := { p with name := "" }

def Definition.unplaced (d : Definition) : Definition := { d with file := "" }

/-! ### Definitions -/

namespace Definitions

lemma find?_unplaced (defs : Definitions) (kind : DefKind) (name : String) :
    find? (defs.map unplaced) kind name = (defs.find? kind name).map unplaced :=
  List.find?_map ..

lemma contains_unplaced (defs : Definitions) (kind : DefKind) (name : String) :
    contains (defs.map unplaced) kind name = defs.contains kind name := by
  rw [contains, find?_unplaced, Option.isSome_map, contains]

lemma names_unplaced (defs : Definitions) (kind : DefKind) : names (defs.map unplaced) kind = defs.names kind := by
  rw [names, filter_map, map_map]
  rfl

lemma agents_unplaced (defs : Definitions) : agents (defs.map unplaced) = defs.agents := by
  rw [agents, filterMap_map]
  rfl

lemma flowArity?_unplaced (defs : Definitions) (name : String) :
    flowArity? (defs.map unplaced) name = defs.flowArity? name := by
  unfold flowArity?
  rw [find?_unplaced]
  cases defs.find? .flow name with
  | none => rfl
  | some d =>
    obtain ⟨_, _, _, _, decl⟩ := d
    cases decl <;> rfl

lemma agree_unplaced (defs : Definitions) : Agree (defs.map unplaced) defs :=
  ⟨contains_unplaced defs, names_unplaced defs, flowArity?_unplaced defs⟩

/-- Definitions are the same but for the files, and so are the kinds of the problems. -/
def Similar {α : Type} (code : α → Code) (s t : Definitions × List α) : Prop :=
  t.1 = s.1.map unplaced ∧ t.2.map code = s.2.map code

lemma Similar.declare (h : Similar (·.cause.code) s t) (file : String) (d : Decl) :
    Similar (·.cause.code) (declare file s d) (declare "" t d) := by
  obtain ⟨defs, problems⟩ := s
  obtain ⟨_, problems'⟩ := t
  obtain ⟨rfl, hproblems⟩ := h
  unfold Definitions.declare
  cases d.named? with
  | none => exact ⟨rfl, hproblems⟩
  | some named =>
    obtain ⟨kind, name, place⟩ := named
    dsimp only
    rw [find?_unplaced]
    cases defs.find? kind name with
    | none => exact ⟨by simp [unplaced], hproblems⟩
    | some first => exact ⟨rfl, by simp only [Option.map_some, map_append, hproblems]; rfl⟩

lemma Similar.collect (h : Similar (·.2.cause.code) s t) (p : Program) :
    Similar (·.2.cause.code) (collect s p) (collect t p.unnamed) := by
  have hdecls : Similar (·.cause.code) (p.decls.foldl (Definitions.declare p.name) (s.1, []))
      (p.decls.foldl (Definitions.declare "") (t.1, [])) :=
    foldl_rel ⟨h.1, rfl⟩ fun d _ _ _ hst => hst.declare p.name d
  refine ⟨hdecls.1, ?_⟩
  have hcodes := hdecls.2
  simp only [Definitions.collect, unnamed, map_append, map_map, h.2]
  exact congrArg _ hcodes

lemma similar_ofPrograms (programs : List Program) :
    Similar (·.2.cause.code) (ofPrograms programs) (ofPrograms (programs.map unnamed)) := by
  rw [ofPrograms, ofPrograms, foldl_map]
  exact foldl_rel ⟨rfl, rfl⟩ fun p _ _ _ hst => hst.collect p

lemma ofPrograms_unnamed (programs : List Program) :
    (ofPrograms (programs.map unnamed)).1 = (ofPrograms programs).1.map unplaced :=
  (similar_ofPrograms programs).1

end Definitions

/-! ### Checks -/

namespace Analysis

lemma cycleProblems_unplaced (defs : Definitions) : (cycleProblems (defs.map unplaced)).map (·.2) =
    (cycleProblems defs).map (·.2) := by
  have hgraph : agentGraph (defs.map unplaced) = agentGraph defs := by
    have hcontains : contains (defs.map unplaced) .agent = defs.contains .agent :=
      funext fun name => contains_unplaced defs .agent name
    simp only [agentGraph, agents_unplaced, hcontains]
  rw [cycleProblems, cycleProblems, hgraph, agents_unplaced, map_filterMap, map_filterMap]
  congr 1
  funext cycle
  cases cycle.head? with
  | none => rfl
  | some first =>
    simp only [find?_unplaced, Option.bind_eq_bind, Option.bind_some]
    cases defs.find? .agent first <;> rfl

lemma globals_unnamed (programs : List Program) : globals (programs.map unnamed) = globals programs := by
  rw [globals, foldl_map]
  rfl

lemma codes_unnamed (programs : List Program) : (problems (programs.map unnamed)).map (·.2.cause.code) =
      (problems programs).map (·.2.cause.code) := by
  have hcycles := congrArg (List.map (·.cause.code)) (cycleProblems_unplaced (ofPrograms programs).1)
  simp only [map_map] at hcycles
  simp only [problems, map_append, ofPrograms_unnamed, globals_unnamed,
    (similar_ofPrograms programs).2, flatMap_map, map_flatMap, map_map,
    checkDecl_of_agree (agree_unplaced _)]
  exact congrArg _ hcycles

lemma clean_iff_of_unnamed {programs others : List Program}
    (h : programs.map unnamed = others.map unnamed) : Clean programs ↔ Clean others := by
  have hcodes : ∀ programs : List Program, Clean programs ↔
      ∀ code ∈ (problems programs).map (·.2.cause.code), code.severity ≠ .error := fun programs => by
    rw [Clean, Harmless, forall_mem_map, forall_mem_map]
  rw [hcodes, hcodes, ← codes_unnamed, h, codes_unnamed]

lemma diagnostics_of_clean {root : Program} {imports : List Program} (h : Clean (root :: imports)) :
    (analyze root imports).diagnostics.any Diagnostic.isError = false := by
  refine any_eq_false.2 fun d hd => ?_
  obtain ⟨⟨file, q⟩, hq, rfl⟩ := mem_map.1 (mem_mergeSort.1 hd)
  have hharmless := h q (mem_map.2 ⟨(file, q), hq, rfl⟩)
  exact fun hsevere => hharmless (of_decide_eq_true hsevere)

end Analysis

/-! ### Listings -/

/-- A line without what names a file: the text of a comment, and the file that it comes from. -/
def Lower.Placed.unplaced (l : Placed) : Placed where
  line := ⟨l.line.depth, match l.line.content with
    | .op o => .op o
    | .comment _ => .comment ""⟩
  origin := l.origin.map fun o => ("", o.2)

def Mapping.unplaced (m : Mapping) : Mapping := { m with file := none }

namespace Lower

lemma placed_unplaced (comments : Bool) (file name : String) (d : Decl) :
    (placed comments file name d).map Placed.unplaced = (placed comments "" name d).map Placed.unplaced := by
  cases comments <;> simp [placed, Placed.unplaced]

lemma lines_unnamed (comments : Bool) (programs : List Program) :
    (lines comments (ofPrograms (programs.map unnamed)).1 (programs.map unnamed)).map Placed.unplaced =
      (lines comments (ofPrograms programs).1 programs).map Placed.unplaced := by
  rw [ofPrograms_unnamed]
  simp only [lines, map_append, map_flatMap, flatMap_map]
  congr 2
  · funext d
    exact (placed_unplaced comments d.file d.name d.decl).symm
  · funext p
    congr 1
    funext d
    exact (placed_unplaced comments p.name "" d).symm

end Lower

lemma Listing.flat_unplaced (lines : List Lower.Placed) :
    (ofPlaced (lines.map Lower.Placed.unplaced)).flat = (ofPlaced lines).flat := by
  simp only [flat, ofPlaced, zipIdx_map, filterMap_map, map_map]
  congr 1
  funext e
  obtain ⟨⟨⟨depth, content⟩, origin⟩, n⟩ := e
  cases content <;> rfl

lemma SourceMap.places_unplaced (generatedFile sourceFile : String) (lines : List Lower.Placed) :
    (ofPlaced generatedFile sourceFile lines).mappings.map Mapping.unplaced =
      (ofPlaced "" "" (lines.map Lower.Placed.unplaced)).mappings := by
  simp only [ofPlaced, zipIdx_map, filterMap_map, map_filterMap]
  congr 1
  funext e
  obtain ⟨⟨line, origin⟩, n⟩ := e
  cases origin <;> rfl

lemma lowered_unplaced {config : CompilerConfig} {root other : Program} {imports : List Program}
    (h : other.unnamed = root.unnamed) :
    (lowered config other imports).map Lower.Placed.unplaced =
      (lowered config root imports).map Lower.Placed.unplaced := by
  have hprograms : (other :: imports).map unnamed = (root :: imports).map unnamed :=
    congrArg (· :: imports.map unnamed) h
  rw [lowered, lowered, ← Lower.lines_unnamed _ (other :: imports), hprograms, Lower.lines_unnamed]

/-! ### Units -/

def CompiledUnit.relist (listing : Listing) (map : SourceMap) (u : CompiledUnit) : CompiledUnit :=
  { u with listing := listing, sourceMap := map }

namespace Assembly

lemma map_bind {ε α β γ : Type} (x : Except ε α) (f : α → Except ε β) (g : β → γ) :
    (x >>= f).map g = x >>= fun a => (f a).map g := by
  cases x <;> rfl

lemma register_relist (listing : Listing) (map : SourceMap) (u : CompiledUnit) (i : Instr) :
    register (u.relist listing map) i = (register u i).map (relist listing map) := by
  obtain ⟨line, op, body⟩ := i
  cases op with
  | model | schema | tool | retry | timeout | guardrail | prompt | agent | handler =>
    rw [register, register, map_bind]
    rfl
  | flow name params =>
    rw [register, register, map_bind]
    simp only [map_bind]
    rfl
  | _ => rfl

lemma foldlM_register_relist (listing : Listing) (map : SourceMap) : ∀ (is : List Instr)
    (u : CompiledUnit), is.foldlM register (u.relist listing map) = (is.foldlM register u).map (relist listing map)
  | [], _ => rfl
  | i :: is, u => by
    rw [foldlM_cons, foldlM_cons, register_relist, map_bind]
    cases register u i with
    | error e => rfl
    | ok v => exact foldlM_register_relist listing map is v

end Assembly

namespace CompiledUnit

lemma assemble_relist {hash : String} {listing other : Listing} {map map' : SourceMap}
    (h : other.flat = listing.flat) :
    assemble hash other map' = (assemble hash listing map).map (relist other map') := by
  rw [assemble, assemble, h, Assembly.map_bind]
  congr 1
  funext top
  exact Assembly.foldlM_register_relist other map' top ⟨[], [], [], [], [], [], [], [], [], [], hash, _, _⟩

lemma listing_of_assemble {hash : String} {listing : Listing} {map : SourceMap} {u : CompiledUnit}
    (h : assemble hash listing map = .ok u) : u.listing = listing ∧ u.sourceMap = map := by
  have hself := @assemble_relist hash listing listing map map rfl
  rw [h] at hself
  rw [Except.ok.inj hself]
  exact ⟨rfl, rfl⟩

/-- Units that are the same but for the names of files in comments and source maps. -/
structure Alike (u v : CompiledUnit) : Prop where
  /-- The tables, the flows and the handlers are equal. -/
  tables : u = v.relist u.listing u.sourceMap
  operations : u.listing.flat = v.listing.flat
  places : u.sourceMap.mappings.map Mapping.unplaced = v.sourceMap.mappings.map Mapping.unplaced

end CompiledUnit

/-! ### Compilation under another name -/

section

variable {config : CompilerConfig} {files : Files} {source name other : String} {c : Compiled}

lemma stages_of_compile (h : compile config files source name = .ok c) : ∃ root loaded,
    ofSource source name = .ok root ∧ root.load files = .ok loaded ∧
    (∀ d ∈ loaded.diagnostics, d.isError = false) ∧ Analysis.Clean (root :: loaded.imports) ∧
    assemble (Digest.ofText source) (ofPlaced (lowered config root loaded.imports))
      (ofPlaced (generatedFileId name (Digest.ofText source)) name (lowered config root loaded.imports)) = .ok c.unit ∧
    c = ⟨c.unit, name, (Loaded.importPaths root).map (·.node), loaded.fingerprints⟩ := by
  obtain ⟨root, loaded, hroot, hloaded, hclean, -⟩ := loaded_of_compile h
  refine ⟨root, loaded, hroot, hloaded, hclean, (lowers_of_compile hroot hloaded h).1, ?_⟩
  rw [compile_eq hroot hloaded] at h
  split at h
  · cases h
  · split at h
    · cases h
    · next unit hunit =>
      cases h
      exact ⟨hunit, rfl⟩

/-- A source that compiles under one name compiles under another beside which its imports are the same, to the
same unit but for the names of files, if that is not the name of an imported file. -/
lemma compile_rename (h : compile config files source name = .ok c)
    (hpaths : ∀ path ∈ c.importPaths, resolve other path = resolve name path)
    (hother : other ∉ c.imports.map (·.1)) :
    ∃ c', compile config files source other = .ok c' ∧ c'.unit.Alike c.unit ∧ c'.imports = c.imports := by
  obtain ⟨root, loaded, hroot, hloaded, hclean, hprograms, hunit, hc⟩ := stages_of_compile h
  have hname := name_of_ofSource hroot
  rw [hc] at hpaths hother
  obtain ⟨seen, hloaded'⟩ := (load_rename hloaded hclean
    (fun path hpath => hname ▸ hpaths _ (mem_map_of_mem hpath))).1 hother
  have hroot' := ofSource_rename hroot other
  have hprograms' : Analysis.Clean ({ root with name := other } :: loaded.imports) :=
    (Analysis.clean_iff_of_unnamed (by rfl)).1 hprograms
  have hlines := @lowered_unplaced config root { root with name := other } loaded.imports rfl
  have hflat : (ofPlaced (lowered config { root with name := other } loaded.imports)).flat =
      (ofPlaced (lowered config root loaded.imports)).flat := by
    rw [← flat_unplaced, hlines, flat_unplaced]
  have hcompile := compile_eq hroot' hloaded' config
  rw [any_append, Analysis.diagnostics_of_clean hprograms', Bool.or_false,
    any_eq_false.2 fun d hd => Bool.eq_false_iff.1 (hclean d hd), if_neg Bool.false_ne_true,
    assemble_relist hflat, hunit] at hcompile
  obtain ⟨hlisting, hmap⟩ := listing_of_assemble hunit
  refine ⟨_, hcompile, ⟨rfl, ?_, ?_⟩, by rw [hc]⟩
  · rw [hlisting]
    exact hflat
  · rw [hmap, places_unplaced, ← hlines, ← places_unplaced]
    rfl

lemma not_mem_imports_of_compile (h : compile config files source name = .ok c)
    (hpaths : ∀ path ∈ c.importPaths, resolve other path = resolve name path)
    (h' : compile config files source other = .ok c') : other ∉ c.imports.map (·.1) := by
  obtain ⟨root, loaded, hroot, hloaded, hclean, -, -, hc⟩ := stages_of_compile h
  obtain ⟨root', loaded', hroot', hloaded', hclean', -⟩ := loaded_of_compile h'
  have hname := name_of_ofSource hroot
  cases hroot'.symm.trans (ofSource_rename hroot other)
  rw [hc] at hpaths ⊢
  exact (load_rename hloaded hclean
    (fun path hpath => hname ▸ hpaths _ (mem_map_of_mem hpath))).2 loaded' hloaded' hclean'

end

namespace Session

lemma isFresh_iff {name : String} : isFresh files name c = true ↔
    (∀ path ∈ c.importPaths, resolve name path = resolve c.name path) ∧ isFresh files c.name c = true := by
  simp only [isFresh, Bool.and_eq_true, Bool.or_eq_true, decide_eq_true_eq, all_eq_true, true_or, true_and]
  refine and_congr_left fun _ => ⟨?_, fun h => .inr fun path hpath => (h path hpath).symm⟩
  rintro (rfl | h) path hpath
  · rfl
  · exact (h path hpath).symm

lemma compile_of_new {config : CompilerConfig} {source name : String}
    (h : (compile { config := config } files source name).2 = .ok c) :
    Workflow.compile config files source name = .ok c.compiled := by
  rw [← @compile_of_empty { config := config } rfl files source name, h]
  rfl

end Session

/-- A request that a session answers by a unit it has, whatever the name that this was compiled under, would be
answered by a new session if and only if the name of the request is not that of a file which the unit imports.
The unit of the new session is then the same but for the names of files. -/
theorem compile_renamed {config : CompilerConfig} {registry : Registry} {files : Files}
    {actions : List Desk.Action} {desk : Desk} (hdesk : (Desk.start config registry files).after actions = desk)
    {source name : String}
    (hdigest : Set.InjOn Digest.ofText (Desk.texts files (actions ++ [.compile source name])))
    {cached : Cached} (hunit : desk.session.unit? source = some cached)
    (hfresh : Session.isFresh desk.files name cached.compiled = true) :
    (desk.session.compile desk.files source name).2 = .ok cached ∧
    ((∃ c, (Session.compile { config := config } desk.files source name).2 = .ok c) ↔
      name ∉ cached.compiled.imports.map (·.1)) ∧
    ∀ c, (Session.compile { config := config } desk.files source name).2 = .ok c →
      c.compiled.unit.Alike cached.compiled.unit := by
  have hsound : desk.Sound config (Desk.texts files (actions ++ [.compile source name])) :=
    hdesk ▸ Desk.sound_of_texts config registry files (subset_append_left _ _)
  have hsource : source ∈ Desk.texts files (actions ++ [.compile source name]) :=
    Or.inr ⟨_, mem_append_right _ mem_cons_self, mem_cons_self⟩
  obtain ⟨hpaths, hself⟩ := Session.isFresh_iff.1 hfresh
  have hold := (hsound.units.unit? hunit).compile hdigest hsource hsound.files hself
  refine ⟨congrArg Prod.snd (Session.compile_of_fresh hunit hfresh), ⟨?_, fun hname => ?_⟩, fun c hc => ?_⟩
  · rintro ⟨c, hc⟩
    exact not_mem_imports_of_compile hold hpaths (Session.compile_of_new hc)
  · obtain ⟨c, hc, -, -⟩ := compile_rename hold hpaths hname
    exact ⟨⟨0, c⟩, Session.compile_new hc⟩
  · have hnew := Session.compile_of_new hc
    have hname := not_mem_imports_of_compile hold hpaths hnew
    obtain ⟨c', hc', halike, -⟩ := compile_rename hold hpaths hname
    cases hc'.symm.trans hnew
    exact halike

lemma resolve_beside {name : String} (h : parent? name.toList = some []) (path : String) :
    resolve name path = path := by
  rw [resolve, h]

lemma isFresh_importDesk (h : compile {} importDesk.files importSource "main" = .ok c) (hname : c.name = "main")
    {name : String} (hbeside : parent? name.toList = some []) : isFresh importDesk.files name c = true := by
  refine isFresh_iff.2 ⟨fun path _ => ?_, hname ▸ isFresh_of_compile h⟩
  rw [resolve_beside hbeside, hname, resolve_beside (by decide)]

/-- Under a name of its own, the importing source is found, and is what a new session makes of it. -/
theorem compile_renamed_import : ∃ cached, importDesk.session.unit? importSource = some cached ∧
    cached.compiled.name = "main" ∧ Session.isFresh importDesk.files "other" cached.compiled = true ∧
    (importDesk.session.compile importDesk.files importSource "other").2 = .ok cached ∧
    ∃ c, (Session.compile {} importDesk.files importSource "other").2 = .ok c ∧
      c.compiled.unit.Alike cached.compiled.unit := by
  obtain ⟨c, hunit, hcompile, hname, himports⟩ := exists_importDesk
  have hfresh := @isFresh_importDesk c hcompile hname "other" (by decide)
  obtain ⟨hfound, hcold, halike⟩ := compile_renamed (rfl : _ = importDesk) (injOn_import "other") hunit hfresh
  obtain ⟨c', hc⟩ := hcold.2 (by rw [himports]; decide)
  exact ⟨_, hunit, hname, hfresh, hfound, c', hc, halike c' hc⟩

/-- Under the name of the library, the importing source is found. But a new session does not compile it:
the import leads back. -/
theorem compile_renamed_circular : ∃ cached, cached.compiled.name = "main" ∧
    Set.InjOn Digest.ofText (Desk.texts [] ([.put "lib" librarySource, .compile importSource "main"]
      ++ [.compile importSource "lib"])) ∧
    (importDesk.session.compile importDesk.files importSource "lib").2 = .ok cached ∧
    ∀ c, (Session.compile {} importDesk.files importSource "lib").2 ≠ .ok c := by
  obtain ⟨c, hunit, hcompile, hname, himports⟩ := exists_importDesk
  have hfound := @isFresh_importDesk c hcompile hname "lib" (by decide)
  refine ⟨_, hname, injOn_import "lib",
    congrArg Prod.snd (compile_of_fresh hunit hfound), fun c hc => ?_⟩
  have hlib := not_mem_imports_of_compile hcompile (hname ▸ (isFresh_iff.1 hfound).1) (compile_of_new hc)
  rw [himports] at hlib
  exact hlib mem_cons_self

end Workflow
