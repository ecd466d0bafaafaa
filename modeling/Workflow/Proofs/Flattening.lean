import Workflow.Proofs.Evaluation

/-!
The lines of a listing after assembly. Folding makes blocks of lines, which read from top to bottom are the
lines again; what is registered then are blocks of the top level as they stand there. So no instruction of a
unit has another line than that of its operation.
-/

namespace Workflow

open List Instr

def Instr.isFailure : Instr → Bool
  | .mk _ .onFailure _ => true
  | _ => false

def Instr.handler? (event : HandlerEvent) : Instr → Option (List Instr)
  | .mk _ (.handler e) body => if e = event then some body else none
  | _ => none

/-- Some blocks behind each other, if there are any. -/
def joined {α : Type} : List (List α) → Option (List α)
  | [] => none
  | blocks => some blocks.flatten

lemma joined_concat {α : Type} (blocks : List (List α)) (block : List α) :
    joined (blocks ++ [block]) = some ((joined blocks).getD [] ++ block) := by
  cases blocks <;> simp [joined]

lemma joined_map {α β : Type} (f : α → β) (blocks : List (List α)) :
    (joined blocks).map (List.map f) = joined (blocks.map (List.map f)) := by
  cases blocks <;> simp [joined]

/-- A unit has its flows and the handlers of its events from some blocks, line numbers and all. -/
structure CompiledUnit.Carries (u : CompiledUnit) (top : List Instr) : Prop where
  flows : ∀ {name : String} {f : FlowUnit}, u.flows.get? name = some f → ∃ block,
    .mk f.line (.flow name f.params) block ∈ top ∧ f.body = block.filter (!·.isFailure) ∧
      f.onFailure = (block.find? isFailure).map body
  handlers : ∀ event, u.handler? event = joined (top.filterMap (Instr.handler? event))

namespace Assembly

/-! ### Folding -/

lemma splitDeeper_eq (depth : Nat) : ∀ ops : List FlatOp, (splitDeeper depth ops).1 ++ (splitDeeper depth ops).2 = ops
  | [] => rfl
  | f :: rest => by
    unfold splitDeeper
    split
    · exact congrArg (f :: ·) (splitDeeper_eq depth rest)
    · rfl

lemma depth_of_splitDeeper (depth : Nat) (ops : List FlatOp) : ∀ f ∈ (splitDeeper depth ops).1, depth < f.depth := by
  induction ops with
  | nil => exact forall_mem_nil _
  | cons f rest ih =>
    unfold splitDeeper
    split
    · next hf => exact forall_mem_cons.2 ⟨hf, ih⟩
    · exact forall_mem_nil _

lemma flattenAll_of_fold (h : fold depth ops = .ok is) (hdepth : ∀ f ∈ ops, depth ≤ f.depth) :
    flattenAll depth is = ops := by
  match ops with
  | [] =>
    rw [fold] at h
    cases h
    rfl
  | f :: rest =>
    have hlength := splitDeeper_length depth rest
    obtain ⟨hf, hrest⟩ := forall_mem_cons.1 hdepth
    by_cases hdeep : depth < f.depth
    · rw [fold, if_pos hdeep] at h
      cases h
    · obtain ⟨body, others, hbody, -, hothers, rfl⟩ := (fold_cons_eq_ok hdeep).1 h
      have hsplit := splitDeeper_eq depth rest
      have hinner := flattenAll_of_fold hbody (depth_of_splitDeeper depth rest)
      have houter := flattenAll_of_fold hothers fun g hg =>
        hrest g (hsplit ▸ mem_append_right _ hg)
      have hline : (⟨f.line, depth, f.op⟩ : FlatOp) = f := by
        rw [Nat.le_antisymm hf (Nat.not_lt.1 hdeep)]
      rw [Instr.flattenAll, Instr.flatten, hinner, houter, hline, cons_append, hsplit]
termination_by ops.length
decreasing_by all_goals simp only [length_cons]; omega

/-! ### Registering -/

lemma eq_of_isFailure {i : Instr} (h : i.isFailure = true) : ∃ line, i = .mk line .onFailure i.body := by
  obtain ⟨line, op, body⟩ := i
  cases op with
  | onFailure => exact ⟨line, rfl⟩
  | _ => cases h

lemma op_of_isFailure {i : Instr} (h : i.isFailure = false) : i.op ≠ .onFailure := by
  obtain ⟨line, op, body⟩ := i
  rintro (rfl : op = .onFailure)
  cases h

lemma eq_of_splitFailure : ∀ {block known failure body}, splitFailure.go known block = .ok (body, failure) →
    body = block.filter (!·.isFailure) ∧ failure = known.or ((block.find? Instr.isFailure).map Instr.body)
  | [], known, failure, body, h => by
    rw [splitFailure.go] at h
    cases h
    simp
  | i :: rest, known, failure, body, h => by
    cases hi : i.isFailure with
    | true =>
      obtain ⟨line, heq⟩ := eq_of_isFailure hi
      rw [heq, splitFailure.go] at h
      cases known with
      | some known => cases h
      | none =>
        obtain ⟨hbody, hfailure⟩ := eq_of_splitFailure h
        exact ⟨by rw [hbody, filter_cons_of_neg (by simp [hi])], by rw [hfailure, List.find?_cons_of_pos hi]; rfl⟩
    | false =>
      rw [splitFailure_cons (op_of_isFailure hi)] at h
      obtain ⟨⟨others, failure'⟩, hrest, heq⟩ := Except.map_eq_ok.1 h
      cases heq
      obtain ⟨hbody, hfailure⟩ := eq_of_splitFailure hrest
      exact ⟨by rw [hbody, filter_cons_of_pos (by simp [hi])], by rw [hfailure, List.find?_cons_of_neg (by simp [hi])]⟩

end Assembly

namespace CompiledUnit.Carries

open Assembly

variable {u : CompiledUnit} {top : List Instr}

lemma of_eq (h : u.Carries top) {v : CompiledUnit} (hflows : v.flows = u.flows)
    (hhandlers : v.handlers = u.handlers) {i : Instr} (hi : ∀ event, i.handler? event = none) :
    v.Carries (top ++ [i]) where
  flows hf := by
    obtain ⟨block, hmem, hblock⟩ := h.flows (hflows ▸ hf)
    exact ⟨block, mem_append_left _ hmem, hblock⟩
  handlers event := by
    rw [handler?, hhandlers, ← handler?, h.handlers, filterMap_append,
      filterMap_cons_none (hi event), filterMap_nil, append_nil]

lemma add_flow (h : u.Carries top) {name : String} {params : List String} {line : Nat}
    {block body : List Instr} {failure : Option (List Instr)}
    (hsplit : splitFailure block = .ok (body, failure)) :
    CompiledUnit.Carries { u with flows := u.flows.insert name ⟨name, params, line, body, failure⟩ }
      (top ++ [.mk line (.flow name params) block]) where
  flows {other f} hf := by
    rw [Table.get?_insert] at hf
    split at hf
    · next heq =>
      subst heq
      cases hf
      obtain ⟨hbody, hfailure⟩ := eq_of_splitFailure hsplit
      exact ⟨block, mem_append_right _ mem_cons_self, hbody, hfailure⟩
    · obtain ⟨block, hmem, hblock⟩ := h.flows hf
      exact ⟨block, mem_append_left _ hmem, hblock⟩
  handlers event := by
    rw [filterMap_append, filterMap_cons_none rfl, filterMap_nil, append_nil]
    exact h.handlers event

lemma add_handler (h : u.Carries top) (event : HandlerEvent) (line : Nat) (block : List Instr) :
    CompiledUnit.Carries { u with handlers := addHandler u.handlers event block }
      (top ++ [.mk line (.handler event) block]) where
  flows hf := by
    obtain ⟨block, hmem, hblock⟩ := h.flows hf
    exact ⟨block, mem_append_left _ hmem, hblock⟩
  handlers other := by
    have hold := h.handlers other
    rw [handler?] at hold
    rw [handler?, find?_addHandler, hold, filterMap_append]
    by_cases heq : event = other
    · have hblock : (Instr.mk line (.handler event) block).handler? other = some block := if_pos heq
      rw [if_pos heq, filterMap_cons_some hblock, filterMap_nil, joined_concat]
    · have hblock : (Instr.mk line (.handler event) block).handler? other = none := if_neg heq
      rw [if_neg heq, filterMap_cons_none hblock, filterMap_nil, append_nil]

lemma enrol (h : u.Carries top) (i : Instr) : (enrol u i).Carries (top ++ [i]) := by
  obtain ⟨line, op, body⟩ := i
  cases op with
  | flow name params =>
    cases hsplit : splitFailure body with
    | ok parts =>
      simp only [Assembly.enrol, hsplit]
      exact h.add_flow hsplit
    | error e =>
      simp only [Assembly.enrol, hsplit]
      exact h.of_eq rfl rfl fun _ => rfl
  | handler event => exact h.add_handler event line body
  | _ =>
    refine h.of_eq ?_ ?_ fun event => ?_ <;> rfl

lemma foldl_enrol : ∀ {is : List Instr} {u : CompiledUnit} {top}, u.Carries top →
    (is.foldl Assembly.enrol u).Carries (top ++ is)
  | [], u, top, h => by rwa [append_nil]
  | i :: rest, u, top, h => by
    rw [append_cons]
    exact foldl_enrol (h.enrol i)

end CompiledUnit.Carries

/-- An assembled unit has the lines of its listing: the listing is made of blocks, and the unit has its flows
and handlers from these. -/
lemma CompiledUnit.carries_of_assemble {hash : String} {listing : Listing} {map : SourceMap}
    (h : assemble hash listing map = .ok u) : ∃ top,
      Assembly.fold 0 listing.flat = .ok top ∧ flattenAll 0 top = listing.flat ∧ u.Carries top := by
  obtain ⟨top, htop, hu⟩ := Except.bind_eq_ok.1 h
  refine ⟨top, htop, Assembly.flattenAll_of_fold htop fun f _ => Nat.zero_le f.depth, ?_⟩
  rw [← Assembly.foldl_enrol_of_register hu]
  refine @CompiledUnit.Carries.foldl_enrol top _ [] ⟨fun hf => ?_, fun event => rfl⟩
  cases hf

end Workflow
