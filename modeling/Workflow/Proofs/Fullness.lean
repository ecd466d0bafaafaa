import Workflow.Proofs.Compilation

/-!
Empty blocks. A header without a block stops assembly. For programs without errors nothing else stops it: they
assemble exactly when none of their blocks is empty.
-/

namespace Workflow

lemma Lower.exists_mem_order {programs : List Program} {p : Program} (hp : p ∈ programs) {d : Decl}
    (hd : d ∈ p.decls) : (∃ i, d = .importDecl i) ∨
      ∃ name, (name, d) ∈ order (Definitions.listed programs) programs := by
  cases hnamed : d.named? with
  | some named =>
    refine .inr ⟨named.2.1, List.mem_append_left _ (List.mem_map.2
      ⟨⟨named.1, named.2.1, p.name, named.2.2, d⟩, ?_, rfl⟩)⟩
    refine List.mem_flatMap.2 ⟨p, hp, List.mem_filterMap.2 ⟨d, hd, ?_⟩⟩
    simp [Definitions.ofDecl?, hnamed]
  | none =>
    cases d with
    | importDecl i => exact .inl ⟨i, rfl⟩
    | handler h =>
      refine .inr ⟨"", List.mem_append_right _ (List.mem_flatMap.2 ⟨p, hp, ?_⟩)⟩
      exact List.mem_map.2 ⟨_, List.mem_filter.2 ⟨hd, rfl⟩, rfl⟩
    | _ => cases hnamed

namespace CompiledUnit

lemma assemble_ok_iff_full {programs : List Program} (hclean : Analysis.Clean programs)
    (comments : Bool) (hash : String) (map : SourceMap) :
    (∃ u, assemble hash (Listing.ofPlaced
        (Lower.lines comments (Definitions.ofPrograms programs).1 programs)) map = .ok u) ↔
      ∀ p ∈ programs, p.Full := by
  constructor
  · rintro ⟨u, hu⟩ p hp d hd
    rw [hclean.ofPrograms_eq] at hu
    obtain ⟨top, htop, -⟩ := Except.bind_eq_ok.1 hu
    have hfold := (Assembly.fold_bare _ _).2 ⟨top, htop, rfl⟩
    rw [Lower.flat_lines, Assembly.fold_decls] at hfold
    rcases Lower.exists_mem_order hp hd with ⟨i, rfl⟩ | ⟨name, hmem⟩
    · trivial
    · exact hfold.1 (name, d) hmem
  · intro hfull
    obtain ⟨u, hu, -⟩ := assemble_of_clean hclean hfull comments hash map
    exact ⟨u, hu⟩

end CompiledUnit

end Workflow
