import Workflow.Proofs.Linked
import Workflow.Proofs.Located
import Workflow.Proofs.Renaming

/-!
Where the instructions of a compiled unit come from. The lines of a listing have the operations and origins of
the trees of its programs, and the instructions have these lines. So the instructions, with their lines looked
up in the source map, are the trees, with comments or without.
-/

namespace Workflow

open List Definitions Located Lower Stmt Program

/-! ### Flows and handlers with their places -/

/-- A flow with the places of its operations. -/
structure LocatedFlow where
  params : List String
  place : Option Place
  body : List Located
  onFailure : Option (List Located)

def FlowUnit.located (place : Nat → Option Place) (f : FlowUnit) : LocatedFlow where
  params := f.params
  place := place f.line
  body := Instr.allLocated place f.body
  onFailure := f.onFailure.map (Instr.allLocated place)

/-- The flow of a definition in a file: its failure block stands apart from the rest. -/
def FlowDef.located (file : String) (d : FlowDef) : LocatedFlow where
  params := plainNames d.params
  place := some (d.span.placeIn file)
  body := allLocated file (steps d.body)
  onFailure := (failures d.body).head?.map (allLocated file)

def LocatedFlow.find? (programs : List Program) (name : String) : Option LocatedFlow :=
  ((listed programs).find? .flow name).bind fun d =>
    match d.decl with
    | .flow f => some (f.located d.file)
    | _ => none

/-- The handlers of an event, one behind the other, in the order of the files. -/
def Located.handlers (programs : List Program) (event : HandlerEvent) : Option (List Located) :=
  joined (programs.flatMap fun p => (p.decls.filterMap (Decl.handler? event)).map (allLocated p.name))

/-- A unit leads back to its programs, from each line of its listing and from each of its instructions. -/
structure CompiledUnit.Mapped (u : CompiledUnit) (programs : List Program) : Prop where
  /-- Mappings can be searched by halves. -/
  increasing : u.sourceMap.mappings.Pairwise (·.generated < ·.generated)
  /-- The operations of the listing come from where the programs have them. -/
  lines : u.listing.flat.map (fun f => (f.op, u.sourceMap.lookup f.line)) = allOps (ofPrograms programs)
  /-- A comment belongs to the last operation before it, if there is one. -/
  comments : ∀ {n depth : Nat} {text : String}, u.listing[n]? = some ⟨depth, .comment text⟩ →
    u.sourceMap.lookup (n + 1) = (u.listing.flat.filter (·.line ≤ n)).getLast?.bind fun f =>
      u.sourceMap.lookup f.line
  /-- The listing is made of blocks, and the instructions of the unit stand in these. -/
  blocks : ∃ top, Instr.flattenAll 0 top = u.listing.flat ∧ u.Carries top
  /-- Flows come from their definitions, instruction by instruction. -/
  flows : ∀ name, (u.flows.get? name).map (FlowUnit.located u.sourceMap.lookup) = LocatedFlow.find? programs name
  /-- The handlers of an event come from all declarations that handle it. -/
  handlers : ∀ event, (u.handler? event).map (Instr.allLocated u.sourceMap.lookup) = Located.handlers programs event

/-! ### Failure blocks -/

lemma Instr.isFailure_located (place : Nat → Option Place) (i : Instr) :
    (i.located place).isFailure = i.isFailure := by
  obtain ⟨line, op, body⟩ := i
  cases op <;> rfl

lemma Instr.body_located (place : Nat → Option Place) (i : Instr) :
    (i.located place).body = Instr.allLocated place i.body := by
  cases i
  rfl

namespace Stmt

variable {file : String}

lemma isFailure_located {s : Stmt} (h : s.failureBody? = none) : ∀ l ∈ s.located file, l.isFailure = false := by
  intro l hl
  cases s with
  | failure body span => cases h
  | branch condition thenBody elseBody span =>
    rcases mem_cons.1 hl with rfl | hl
    · rfl
    · obtain ⟨first, -, rfl⟩ := mem_map.1 hl
      rfl
  | ret value span => cases value <;> (rw [mem_singleton.1 hl]; rfl)
  | run target invocation onEscalate span => cases invocation <;> (rw [mem_singleton.1 hl]; rfl)
  | _ => rw [mem_singleton.1 hl]; rfl

lemma split_allLocated (file : String) (ss : List Stmt) :
    (allLocated file ss).filter (!·.isFailure) = allLocated file (steps ss) ∧
      ((allLocated file ss).find? isFailure).map body = (failures ss).head?.map (allLocated file) := by
  induction ss with
  | nil => exact ⟨rfl, rfl⟩
  | cons s ss ih =>
    obtain ⟨hfilter, hfind⟩ := ih
    rw [allLocated, filter_append, List.find?_append, hfilter]
    cases hfailure : s.failureBody? with
    | none =>
      have hnone : ∀ l ∈ s.located file, l.isFailure = false := isFailure_located hfailure
      rw [steps_cons_none hfailure, failures_cons_none hfailure, allLocated,
        filter_eq_self.2 fun l hl => by rw [hnone l hl]; rfl,
        List.find?_eq_none.2 fun l hl => by simp [hnone l hl], Option.none_or]
      exact ⟨rfl, hfind⟩
    | some body =>
      obtain ⟨span, rfl⟩ := eq_failure hfailure
      rw [steps_cons_some hfailure, failures_cons_some hfailure]
      exact ⟨rfl, rfl⟩

end Stmt

lemma FlowUnit.located_eq {f : FlowUnit} {d : FlowDef} {block : List Instr}
    (hparams : f.params = plainNames d.params) (hline : place f.line = some (d.span.placeIn file))
    (hblock : Instr.allLocated place block = allLocated file d.body) (hbody : f.body = block.filter (!·.isFailure))
    (hfailure : f.onFailure = (block.find? Instr.isFailure).map Instr.body) : f.located place = d.located file := by
  obtain ⟨hsteps, hfailures⟩ := split_allLocated file d.body
  rw [← hblock, Instr.allLocated_eq_map] at hsteps hfailures
  rw [FlowUnit.located, FlowDef.located, hparams, hline, hbody, hfailure, ← hsteps, ← hfailures,
    Instr.allLocated_eq_map, filter_map, List.find?_map, Option.map_map, Option.map_map]
  simp only [Function.comp_def, Instr.isFailure_located, Instr.body_located]

/-! ### Units -/

section

variable {u : CompiledUnit} {top : List Instr} {programs : List Program} {place : Nat → Option Place}
  {name : String} {params : List String} {origin : Option Place} {block : List Located}

lemma Decl.eq_of_mem_located {d : Decl} (h : .mk (.flow name params) origin block ∈ d.located file other) :
    ∃ f : FlowDef, d = .flow f ∧ f.name.node = name ∧ params = plainNames f.params ∧
      origin = some (f.span.placeIn file) ∧ block = allLocated file f.body := by
  obtain ⟨i, hi, heq⟩ := mem_map.1 h
  cases d with
  | flow f =>
    obtain rfl := mem_singleton.1 hi
    cases heq
    exact ⟨f, rfl, rfl, rfl, rfl, rfl⟩
  | importDecl d => cases hi
  | _ =>
    obtain rfl := mem_singleton.1 hi
    cases heq

lemma Located.definition_of_mem (h : .mk (.flow name params) origin block ∈ ofPrograms programs) :
    ∃ d ∈ listed programs, ∃ f : FlowDef, d.decl = .flow f ∧ d.kind = .flow ∧ d.name = name ∧
      params = plainNames f.params ∧ origin = some (f.span.placeIn d.file) ∧
      block = allLocated d.file f.body := by
  rcases mem_append.1 h with h | h
  · obtain ⟨d, hd, h⟩ := mem_flatMap.1 h
    obtain ⟨f, hf, rfl, hparams, hplace, hblock⟩ := Decl.eq_of_mem_located h
    have hnamed := faithful_listed programs d hd
    rw [hf] at hnamed
    have hkey := (Option.some.inj hnamed).symm
    exact ⟨d, hd, f, hf, congrArg Prod.fst hkey, congrArg (·.2.1) hkey, hparams, hplace, hblock⟩
  · obtain ⟨p, -, h⟩ := mem_flatMap.1 h
    obtain ⟨d, hd, h⟩ := mem_flatMap.1 h
    obtain ⟨f, rfl, -⟩ := Decl.eq_of_mem_located h
    obtain ⟨-, handler, heq⟩ := mem_handlers hd
    cases heq

lemma CompiledUnit.Carries.map_flows (h : u.Carries top)
    (htop : Instr.allLocated place top = Located.ofPrograms programs) (hclean : Analysis.Clean programs)
    (hlowers : u.Lowers (decls programs)) (name : String) :
    (u.flows.get? name).map (FlowUnit.located place) = LocatedFlow.find? programs name := by
  cases hf : u.flows.get? name with
  | some f =>
    obtain ⟨block, hmem, hbody, hfailure⟩ := h.flows hf
    have hlocated := mem_map_of_mem (f := Instr.located place) hmem
    rw [← Instr.allLocated_eq_map, htop] at hlocated
    obtain ⟨d, hd, fd, hdecl, hkind, rfl, hparams, hplace, hblock⟩ := Located.definition_of_mem hlocated
    have hfind := find?_of_mem hclean.keys_listed hd
    rw [hkind] at hfind
    rw [LocatedFlow.find?, hfind, Option.bind_some, hdecl, Option.map_some,
      FlowUnit.located_eq hparams hplace hblock hbody hfailure]
  | none =>
    cases hfind : (listed programs).find? .flow name with
    | none => rw [LocatedFlow.find?, hfind]; rfl
    | some d =>
      obtain ⟨d, hd, hkey⟩ := decl_of_contains (Option.isSome_iff_exists.2 ⟨d, hfind⟩)
      cases d with
      | flow fd =>
        obtain ⟨f, hget, -⟩ := hlowers.flow_of_decl hd
        cases hkey
        cases hf.symm.trans hget
      | _ => cases hkey

lemma Decl.handler?_located (event : HandlerEvent) (file name : String) (d : Decl) :
    (d.located file name).filterMap (Located.handler? event) = ((d.handler? event).map (allLocated file)).toList := by
  cases d with
  | handler d =>
    by_cases h : d.event.node = event <;>
      simp [Decl.located, Decl.instrs, Decl.handler?, Located.handler?, Instr.op, Decl.body, h]
  | _ => rfl

lemma Located.handler?_ofPrograms (event : HandlerEvent) (programs : List Program) :
    (ofPrograms programs).filterMap (handler? event) =
      programs.flatMap fun p => (p.decls.filterMap (Decl.handler? event)).map (allLocated p.name) := by
  have hdefinitions : ((listed programs).flatMap fun d =>
      ((d.decl.handler? event).map (allLocated d.file)).toList) = [] := by
    refine flatMap_eq_nil_iff.2 fun d hd => ?_
    have hnamed := faithful_listed programs d hd
    cases hdecl : d.decl with
    | handler handler =>
      rw [hdecl] at hnamed
      cases hnamed
    | _ => rfl
  simp only [Located.ofPrograms, filterMap_append, filterMap_flatMap, Decl.handler?_located, hdefinitions, nil_append]
  congr 1
  funext p
  rw [← filterMap_eq_flatMap_toList, Lower.handlers, filterMap_filter, map_filterMap]
  congr 1
  funext d
  cases d <;> rfl

lemma CompiledUnit.Carries.map_handlers (h : u.Carries top)
    (htop : Instr.allLocated place top = Located.ofPrograms programs) (event : HandlerEvent) :
    (u.handler? event).map (Instr.allLocated place) = Located.handlers programs event := by
  have hlocated : ∀ i : Instr, (i.located place).handler? event = (i.handler? event).map (Instr.allLocated place) := by
    rintro ⟨line, op, body⟩
    cases op with
    | handler e => by_cases he : e = event <;> simp [Instr.located, Located.handler?, Instr.handler?, he]
    | _ => rfl
  have hmap : Instr.allLocated place = List.map (Instr.located place) :=
    funext (Instr.allLocated_eq_map place)
  rw [h.handlers, Located.handlers, ← Located.handler?_ofPrograms, ← htop, hmap, joined_map,
    filterMap_map, map_filterMap, ← hmap]
  simp only [Function.comp_def, hlocated]

end

/-- Two units have the same operations from the same places, whatever their lines are. -/
structure CompiledUnit.SamePlaces (u v : CompiledUnit) : Prop where
  lines : u.listing.flat.map (fun f => (f.op, u.sourceMap.lookup f.line)) =
    v.listing.flat.map fun f => (f.op, v.sourceMap.lookup f.line)
  flows : ∀ name, (u.flows.get? name).map (FlowUnit.located u.sourceMap.lookup) =
    (v.flows.get? name).map (FlowUnit.located v.sourceMap.lookup)
  handlers : ∀ event, (u.handler? event).map (Instr.allLocated u.sourceMap.lookup) =
    (v.handler? event).map (Instr.allLocated v.sourceMap.lookup)

lemma CompiledUnit.Mapped.samePlaces {u v : CompiledUnit} (hu : u.Mapped programs) (hv : v.Mapped programs) :
    u.SamePlaces v where
  lines := hu.lines.trans hv.lines.symm
  flows name := (hu.flows name).trans (hv.flows name).symm
  handlers event := (hu.handlers event).trans (hv.handlers event).symm

lemma CompiledUnit.mapped_of_assemble {programs : List Program} (hclean : Analysis.Clean programs)
    (hfull : ∀ p ∈ programs, p.Full) {u : CompiledUnit} (hlowers : u.Lowers (decls programs))
    {comments : Bool} {hash generatedFile sourceFile : String}
    (h : assemble hash (Listing.ofPlaced (lines comments (listed programs) programs))
      (SourceMap.ofPlaced generatedFile sourceFile
        (lines comments (listed programs) programs)) = .ok u) : u.Mapped programs := by
  obtain ⟨hlisting, hmap⟩ := listing_of_assemble h
  obtain ⟨top, htop, hflat, hcarries⟩ := carries_of_assemble h
  obtain ⟨top', htop', hbare⟩ := fold_lines hfull comments
  cases htop.symm.trans htop'
  have hmarked : ∀ l ∈ lines comments (listed programs) programs, l.Marked :=
    fun l hl => marked_lines hl
  have hlines := @SourceMap.map_flat_ofPlaced generatedFile sourceFile _ [] hmarked
  rw [append_nil, op?_lines, ← hlisting, ← hmap] at hlines
  rw [← hlisting] at hflat
  -- the instructions have the shape of the trees, and from top to bottom their places
  have hlocated : Instr.allLocated u.sourceMap.lookup top = Located.ofPrograms programs := by
    refine eq_of_allOps ?_ ?_
    · rw [Instr.bareAll_located, hbare, Located.bareAll_ofPrograms]
    · rw [Instr.allOps_located _ top 0, hflat, hlines]
  refine ⟨?_, hlines, fun {n depth text} hn => ?_, ⟨top, hflat, hcarries⟩,
    hcarries.map_flows hlocated hclean hlowers, hcarries.map_handlers hlocated⟩
  · rw [hmap]
    exact SourceMap.increasing_ofPlaced generatedFile sourceFile _
  · rw [hlisting] at hn ⊢
    rw [hmap]
    exact SourceMap.lookup_comment generatedFile sourceFile hmarked hn

lemma mapped_of_compile {config : CompilerConfig} {files : Files} {source name : String} {root : Program}
    {loaded : Loaded} {compiled : Compiled} (hroot : ofSource source name = .ok root)
    (hloaded : root.load files = .ok loaded) (hcompiled : compile config files source name = .ok compiled) :
    compiled.unit.Mapped (root :: loaded.imports) := by
  obtain ⟨hclean, hlowers⟩ := lowers_of_compile hroot hloaded hcompiled
  obtain ⟨root', loaded', hroot', hloaded', -, -, hunit, -⟩ := stages_of_compile hcompiled
  cases hroot.symm.trans hroot'
  cases hloaded.symm.trans hloaded'
  rw [lowered, hclean.ofPrograms_eq] at hunit
  exact CompiledUnit.mapped_of_assemble hclean (full_of_load hroot hloaded) hlowers hunit

/-- What compiles leads back to its source and imports: each operation of the listing and each instruction to
where it is written, and each comment to the operation before it, with comments and without. -/
theorem compiled_places {config : CompilerConfig} {files : Files} {source name : String} {root : Program}
    {loaded : Loaded} {compiled : Compiled} (hroot : ofSource source name = .ok root)
    (hloaded : root.load files = .ok loaded) (hcompiled : compile config files source name = .ok compiled) :
    compiled.unit.Mapped (root :: loaded.imports) ∧
      ∀ other : CompilerConfig, ∃ compiled', compile other files source name = .ok compiled' ∧
        compiled'.unit.Mapped (root :: loaded.imports) ∧ compiled'.unit.SamePlaces compiled.unit := by
  have hmapped := mapped_of_compile hroot hloaded hcompiled
  refine ⟨hmapped, fun other => ?_⟩
  obtain ⟨-, u, -, hother⟩ := compile_of_clean hroot hloaded (noErrors_of_compile hroot hloaded hcompiled) other
  have hmapped' := mapped_of_compile hroot hloaded hother
  exact ⟨_, hother, hmapped', hmapped'.samePlaces hmapped⟩

/-- A flow with a branch and a failure block, behind an import. -/
def branchSource : String :=
  "import \"lib\"\nflow f $x:\n if $x do\n  log 1\n else\n  log 2\n end\n on failure do\n  log 3\n end\n"

def logSource : String := "flow g:\n log 4\n"

theorem compiled_places_branch : ∃ root loaded compiled compiled',
    ofSource branchSource "main" = .ok root ∧ root.load [("lib", logSource)] = .ok loaded ∧
    compile {} [("lib", logSource)] branchSource "main" = .ok compiled ∧
    compile { sourceComments := false } [("lib", logSource)] branchSource "main" = .ok compiled' ∧
    compiled.unit.Mapped (root :: loaded.imports) ∧ compiled'.unit.SamePlaces compiled.unit ∧
    compiled'.unit.listing.flat.map (fun f => compiled'.unit.sourceMap.lookup f.line) =
      [some ⟨"main", 2, 1⟩, some ⟨"main", 3, 2⟩, some ⟨"main", 4, 3⟩, some ⟨"main", 6, 3⟩,
        some ⟨"main", 6, 3⟩, some ⟨"main", 8, 2⟩, some ⟨"main", 9, 3⟩, some ⟨"lib", 1, 1⟩,
        some ⟨"lib", 2, 2⟩] := by
  obtain ⟨root, loaded, compiled, hroot, hloaded, hcompiled, hplaces⟩ := exists_of_compilesTo
    (show compilesTo [("lib", logSource)] branchSource "main" (fun root loaded _ => decide
      ((allOps (ofPrograms (root :: loaded.imports))).map Prod.snd =
        [some ⟨"main", 2, 1⟩, some ⟨"main", 3, 2⟩, some ⟨"main", 4, 3⟩, some ⟨"main", 6, 3⟩,
          some ⟨"main", 6, 3⟩, some ⟨"main", 8, 2⟩, some ⟨"main", 9, 3⟩, some ⟨"lib", 1, 1⟩,
          some ⟨"lib", 2, 2⟩])) = true by decide +kernel)
  obtain ⟨hmapped, hother⟩ := compiled_places hroot hloaded hcompiled
  obtain ⟨compiled', hcompiled', hmapped', hsame⟩ := hother { sourceComments := false }
  refine ⟨root, loaded, compiled, compiled', hroot, hloaded, hcompiled, hcompiled', hmapped, hsame, ?_⟩
  rw [← of_decide_eq_true hplaces, ← hmapped'.lines, map_map]
  rfl

end Workflow
