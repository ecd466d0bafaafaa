import Workflow.Proofs.Places

/-!
Source maps in both directions. From a line of the source one asks for the lines of the listing that come from
it; the answer has the operations that come from this line of any file. So the two directions agree just if no
operation of an imported file comes from a line with the same number.
-/

namespace Workflow

open List Listing Program Definitions

variable {n : Nat} {comments : Bool} {l : Lower.Placed} {name : String}

def Listing.IsOp (lines : Listing) (n : Nat) : Prop := ∃ f ∈ lines.flat, f.line = n

/-- The lines of a unit that are told for a line of a file are its operations that come from there. -/
def CompiledUnit.Traces (u : CompiledUnit) (file : String) (line : Nat) : Prop :=
  ∀ n, n ∈ u.sourceMap.generatedLines line ↔
    u.listing.IsOp n ∧ ∃ p, u.sourceMap.lookup n = some p ∧ p.file = file ∧ p.line = line

/-- Operations that come from a line with this number come from one file. -/
def CompiledUnit.OnlyFrom (u : CompiledUnit) (file : String) (line : Nat) : Prop :=
  ∀ n p, u.listing.IsOp n → u.sourceMap.lookup n = some p → p.line = line → p.file = file

section

open Lower (Placed)

variable {generatedFile sourceFile : String} {lines : List Placed}

lemma Listing.isOp_ofPlaced (hmarked : ∀ l ∈ lines, l.Marked) : IsOp (ofPlaced lines) n ↔
      ∃ k l, lines[k]? = some l ∧ n = k + 1 ∧ l.place?.isSome = true := by
  have hsome : ∀ l ∈ lines, l.op?.isSome = l.place?.isSome := fun l hl => by
    have h := congrArg Option.isSome (hmarked l hl)
    rwa [Option.isSome_map, Option.isSome_map] at h
  simp only [IsOp, flat, mem_filterMap, Prod.exists, mem_zipIdx_iff_getElem?,
    ofPlaced, List.getElem?_map, Option.map_eq_some_iff]
  constructor
  · rintro ⟨f, ⟨line, k, ⟨l, hl, rfl⟩, hf⟩, rfl⟩
    refine ⟨k, l, hl, ?_⟩
    rw [← hsome l (mem_of_getElem? hl), Placed.op?]
    cases hcontent : l.line.content with
    | op o =>
      rw [hcontent] at hf
      cases hf
      exact ⟨rfl, rfl⟩
    | comment text =>
      rw [hcontent] at hf
      cases hf
  · rintro ⟨k, l, hl, rfl, hplace⟩
    rw [← hsome l (mem_of_getElem? hl), Placed.op?] at hplace
    cases hcontent : l.line.content with
    | op o => exact ⟨⟨k + 1, l.line.depth, o⟩, ⟨l.line, k, ⟨l, hl, rfl⟩, by rw [hcontent]⟩, rfl⟩
    | comment text =>
      rw [hcontent] at hplace
      cases hplace

lemma SourceMap.isOp_and_lookup (hmarked : ∀ l ∈ lines, l.Marked) :
    (Listing.ofPlaced lines).IsOp n ∧ (ofPlaced generatedFile sourceFile lines).lookup n = some p ↔
      ∃ k l, lines[k]? = some l ∧ n = k + 1 ∧ l.place? = some p := by
  rw [isOp_ofPlaced hmarked]
  constructor
  · rintro ⟨⟨k, l, hl, rfl, hplace⟩, hlookup⟩
    obtain ⟨q, hq⟩ := Option.isSome_iff_exists.1 hplace
    rw [lookup_of_getElem? generatedFile sourceFile hl, hq, Option.some_or] at hlookup
    exact ⟨k, l, hl, rfl, hq.trans hlookup⟩
  · rintro ⟨k, l, hl, rfl, hplace⟩
    refine ⟨⟨k, l, hl, rfl, by rw [hplace]; rfl⟩, ?_⟩
    rw [lookup_of_getElem? generatedFile sourceFile hl, hplace, Option.some_or]

lemma SourceMap.mem_generatedLines : n ∈ (ofPlaced generatedFile sourceFile lines).generatedLines line ↔
      ∃ k l, lines[k]? = some l ∧ n = k + 1 ∧ ∃ p, l.place? = some p ∧ p.line = line := by
  simp only [generatedLines, mappings_ofPlaced, mem_map, mem_filter, mem_filterMap,
    Prod.exists, mem_zipIdx_iff_getElem?, decide_eq_true_eq]
  constructor
  · rintro ⟨m, ⟨⟨l, k, hl, hm⟩, rfl⟩, rfl⟩
    refine ⟨k, l, hl, generated_mapping? hm, ?_⟩
    obtain ⟨⟨file, span⟩, horigin, rfl⟩ := Option.map_eq_some_iff.1 hm
    exact ⟨span.placeIn file, by rw [Placed.place?, horigin]; rfl, rfl⟩
  · rintro ⟨k, l, hl, rfl, p, hp, rfl⟩
    obtain ⟨⟨file, span⟩, horigin, rfl⟩ := Option.map_eq_some_iff.1 hp
    refine ⟨mappingFrom sourceFile file (k + 1) span.line span.column, ⟨⟨l, k, hl, ?_⟩, rfl⟩, rfl⟩
    rw [mapping?, horigin]
    rfl

lemma SourceMap.mem_generatedLines_iff (hmarked : ∀ l ∈ lines, l.Marked) :
    n ∈ (ofPlaced generatedFile sourceFile lines).generatedLines line ↔ (Listing.ofPlaced lines).IsOp n ∧
        ∃ p, (ofPlaced generatedFile sourceFile lines).lookup n = some p ∧ p.line = line := by
  rw [mem_generatedLines]
  constructor
  · rintro ⟨k, l, hl, hn, p, hp, hline⟩
    obtain ⟨hop, hlookup⟩ := (isOp_and_lookup hmarked).2 ⟨k, l, hl, hn, hp⟩
    exact ⟨hop, p, hlookup, hline⟩
  · rintro ⟨hop, p, hlookup, hline⟩
    obtain ⟨k, l, hl, hn, hp⟩ := (isOp_and_lookup hmarked).1 ⟨hop, hlookup⟩
    exact ⟨k, l, hl, hn, p, hp, hline⟩

end

lemma Lower.mem_lines (h : l ∈ lines comments (listed programs) programs) :
    ∃ p ∈ programs, ∃ d ∈ p.decls, ∃ name, (∀ a, d = .agent a → name = a.effectiveName) ∧
      l ∈ placed comments p.name name d := by
  rcases mem_append.1 h with h | h
  · obtain ⟨definition, hdefinition, hl⟩ := mem_flatMap.1 h
    obtain ⟨p, hp, hd⟩ := mem_flatMap.1 hdefinition
    obtain ⟨d, hmem, hd⟩ := mem_filterMap.1 hd
    obtain ⟨⟨kind, name, place⟩, hnamed, rfl⟩ := Option.map_eq_some_iff.1 hd
    refine ⟨p, hp, d, hmem, name, fun a ha => ?_, hl⟩
    subst ha
    cases hnamed
    rfl
  · obtain ⟨p, hp, hl⟩ := mem_flatMap.1 h
    obtain ⟨d, hd, hl⟩ := mem_flatMap.1 hl
    obtain ⟨hmem, handler, rfl⟩ := mem_handlers hd
    exact ⟨p, hp, _, hmem, "", fun a ha => Decl.noConfusion ha, hl⟩

lemma Lower.mem_placed (h : l ∈ placed comments file name d) :
    l = ⟨⟨0, .comment (file ++ ":" ++ toString d.span.line)⟩, none⟩ ∨
      ∃ step ∈ decl name d, l = ⟨⟨step.depth, .op step.op⟩, some (file, step.span)⟩ := by
  rcases mem_append.1 h with h | h
  · cases comments with
    | false => cases h
    | true => exact .inl (mem_singleton.1 h)
  · obtain ⟨step, hstep, rfl⟩ := mem_map.1 h
    exact .inr ⟨step, hstep, rfl⟩

lemma Lower.file_of_mem_lines (h : l ∈ lines comments (listed programs) programs) (hp : l.place? = some p) :
    ∃ q ∈ programs, p.file = q.name := by
  obtain ⟨q, hq, d, -, name, -, hl⟩ := mem_lines h
  rcases mem_placed hl with rfl | ⟨step, -, rfl⟩
  · cases hp
  · cases hp
    exact ⟨q, hq, rfl⟩

lemma placed_of_compile (hroot : ofSource source name = .ok root) (hloaded : root.load files = .ok loaded)
    (hcompiled : compile config files source name = .ok compiled) :
    compiled.unit.listing = ofPlaced (Lower.lines config.sourceComments
        (listed (root :: loaded.imports)) (root :: loaded.imports)) ∧
      compiled.unit.sourceMap = SourceMap.ofPlaced (generatedFileId name (Digest.ofText source)) name
        (Lower.lines config.sourceComments (listed (root :: loaded.imports)) (root :: loaded.imports)) := by
  obtain ⟨root', loaded', hroot', hloaded', -, hclean, hunit, -⟩ := stages_of_compile hcompiled
  cases hroot.symm.trans hroot'
  cases hloaded.symm.trans hloaded'
  rw [lowered, hclean.ofPrograms_eq] at hunit
  exact CompiledUnit.listing_of_assemble hunit

/-- The two directions of a source map agree for a line of the root file just if all operations that come from a
line with this number come from the root file. In any case the lines that are told are the operations that come
from this line of some file. -/
theorem source_map_inverse {config : CompilerConfig} {files : Files} {source name : String} {root : Program}
    {loaded : Loaded} {compiled : Compiled} (hroot : ofSource source name = .ok root)
    (hloaded : root.load files = .ok loaded) (hcompiled : compile config files source name = .ok compiled)
    (line : Nat) :
    (compiled.unit.Traces name line ↔ compiled.unit.OnlyFrom name line) ∧
    (loaded.imports = [] → compiled.unit.OnlyFrom name line) ∧
    ∀ n, n ∈ compiled.unit.sourceMap.generatedLines line ↔
      compiled.unit.listing.IsOp n ∧ ∃ p, compiled.unit.sourceMap.lookup n = some p ∧ p.line = line := by
  obtain ⟨hlisting, hmap⟩ := placed_of_compile hroot hloaded hcompiled
  have htold : ∀ n, n ∈ compiled.unit.sourceMap.generatedLines line ↔
      compiled.unit.listing.IsOp n ∧ ∃ p, compiled.unit.sourceMap.lookup n = some p ∧ p.line = line := by
    intro n
    rw [hlisting, hmap]
    exact SourceMap.mem_generatedLines_iff fun l hl => Lower.marked_lines hl
  refine ⟨⟨fun htraces n p hop hlookup hline => ?_, fun honly n => ?_⟩, fun himports n p hop hlookup _ => ?_, htold⟩
  · obtain ⟨-, q, hq, hfile, -⟩ := (htraces n).1 ((htold n).2 ⟨hop, p, hlookup, hline⟩)
    cases hlookup.symm.trans hq
    exact hfile
  · rw [htold]
    constructor
    · rintro ⟨hop, p, hlookup, hline⟩
      exact ⟨hop, p, hlookup, honly n p hop hlookup hline, hline⟩
    · rintro ⟨hop, p, hlookup, -, hline⟩
      exact ⟨hop, p, hlookup, hline⟩
  · rw [hlisting] at hop
    rw [hmap] at hlookup
    obtain ⟨k, l, hl, -, hplace⟩ :=
      (SourceMap.isOp_and_lookup fun l hl => Lower.marked_lines hl).1 ⟨hop, hlookup⟩
    obtain ⟨q, hq, hfile⟩ := Lower.file_of_mem_lines (mem_of_getElem? hl) hplace
    rw [himports, mem_singleton] at hq
    rw [hfile, hq, name_of_ofSource hroot]

def returnSource : String := "import \"lib\"\nflow f:\n  return 1\n"

/-- The flow of a library, which has lines with the same numbers. -/
def returnLibrary : String := "flow g:\n  return 2\n"

lemma exists_returnUnit : ∃ root loaded compiled, ofSource returnSource "main" = .ok root ∧
    root.load [("lib", returnLibrary)] = .ok loaded ∧
    compile {} [("lib", returnLibrary)] returnSource "main" = .ok compiled ∧
    compiled.unit.sourceMap.generatedLines 2 = [2, 6] ∧ compiled.unit.sourceMap.generatedLines 3 = [3] ∧
    compiled.unit.sourceMap.lookup 3 = some ⟨"main", 3, 3⟩ ∧
    compiled.unit.sourceMap.lookup 6 = some ⟨"lib", 2, 3⟩ := by
  obtain ⟨root, loaded, compiled, hroot, hloaded, hcompiled, h⟩ := exists_of_compilesTo
    (show compilesTo [("lib", returnLibrary)] returnSource "main" (fun _ _ c =>
      let map := c.unit.sourceMap
      decide (map.generatedLines 2 = [2, 6] ∧ map.generatedLines 3 = [3] ∧
        map.lookup 3 = some ⟨"main", 3, 3⟩ ∧ map.lookup 6 = some ⟨"lib", 2, 3⟩)) = true by decide +kernel)
  exact ⟨root, loaded, compiled, hroot, hloaded, hcompiled, of_decide_eq_true h⟩

theorem source_map_inverse_return : ∃ root loaded compiled,
    ofSource returnSource "main" = .ok root ∧ root.load [("lib", returnLibrary)] = .ok loaded ∧
    compile {} [("lib", returnLibrary)] returnSource "main" = .ok compiled ∧
    compiled.unit.sourceMap.generatedLines 3 = [3] ∧ compiled.unit.Traces "main" 3 := by
  obtain ⟨root, loaded, compiled, hroot, hloaded, hcompiled, -, hthree, hlookup, -⟩ := exists_returnUnit
  obtain ⟨htraces, -, htold⟩ := source_map_inverse hroot hloaded hcompiled 3
  refine ⟨root, loaded, compiled, hroot, hloaded, hcompiled, hthree, htraces.2 fun n p hop hp hline => ?_⟩
  have hn := (htold n).2 ⟨hop, p, hp, hline⟩
  rw [hthree, mem_singleton] at hn
  rw [hn, hlookup] at hp
  rw [← Option.some.inj hp]

/-- An operation of the library is told for a line of the root file. -/
theorem source_map_mixes_files : ∃ compiled, compile {} [("lib", returnLibrary)] returnSource "main" = .ok compiled ∧
    6 ∈ compiled.unit.sourceMap.generatedLines 2 ∧
    compiled.unit.sourceMap.lookup 6 = some ⟨"lib", 2, 3⟩ ∧ ¬ compiled.unit.Traces "main" 2 := by
  obtain ⟨root, loaded, compiled, -, -, hcompiled, htwo, -, -, hlookup⟩ := exists_returnUnit
  have hmem : 6 ∈ compiled.unit.sourceMap.generatedLines 2 := by rw [htwo]; decide
  refine ⟨compiled, hcompiled, hmem, hlookup, fun htraces => ?_⟩
  obtain ⟨-, p, hp, hfile, -⟩ := (htraces 6).1 hmem
  rw [hlookup] at hp
  rw [← Option.some.inj hp] at hfile
  exact absurd hfile (by decide)

end Workflow
