import Mathlib.Data.List.Chain
import Workflow.Proofs.Flattening

/-!
Depths that make blocks. Operations fold into instructions iff their depths start at zero and go up by one behind
every header and behind nothing else. Read from top to bottom with their depths, the instructions are then the
operations again, and no other instructions are.
-/

namespace Workflow.Assembly

open List Instr

/-- An operation may stand directly behind another: it is deeper iff the other is a header, and then by one. -/
def Follows (f g : FlatOp) : Prop := g.depth ≤ f.depth + 1 ∧ (f.depth < g.depth ↔ f.op.isHeader = true)

/-- Operations whose depths make blocks at a depth. A header is not the last of them. -/
structure Nested (depth : Nat) (ops : List FlatOp) : Prop where
  starts : ∀ f ∈ ops.head?, f.depth = depth
  follows : ops.IsChain Follows
  ends : ∀ f ∈ ops.getLast?, f.op.isHeader = false

lemma nested_nil (depth : Nat) : Nested depth [] := ⟨nofun, .nil, nofun⟩

lemma nested_cons {f : FlatOp} {inner : List FlatOp} (hf : f.depth = depth) (hinner : ∀ g ∈ inner, depth < g.depth) :
    Nested depth (f :: inner) ↔ f.op.isHeader = !inner.isEmpty ∧ Nested (depth + 1) inner := by
  cases inner with
  | nil =>
    have hends : Nested depth [f] ↔ f.op.isHeader = false :=
      ⟨fun h => h.ends f rfl, fun h => ⟨fun _ hg => Option.some.inj hg ▸ hf, .singleton f,
        fun _ hg => Option.some.inj hg ▸ h⟩⟩
    simp [hends, nested_nil]
  | cons g others =>
    have hg : depth < g.depth := hinner g mem_cons_self
    constructor
    · intro h
      obtain ⟨⟨hstep, hheader⟩, hothers⟩ := isChain_cons_cons.1 h.follows
      have hdepth : g.depth = depth + 1 := by omega
      exact ⟨hheader.1 (hf ▸ hg), fun _ he => Option.some.inj he ▸ hdepth, hothers, h.ends⟩
    · rintro ⟨hheader, hothers⟩
      have hdepth : g.depth = depth + 1 := hothers.starts g rfl
      have hstep : Follows f g := ⟨by omega, fun _ => hheader, fun _ => by omega⟩
      exact ⟨fun _ he => Option.some.inj he ▸ hf, isChain_cons_cons.2 ⟨hstep, hothers.follows⟩, hothers.ends⟩

lemma nested_append {block outer : List FlatOp} (hblock : ∀ f ∈ block, depth ≤ f.depth) (hne : block ≠ [])
    (houter : ∀ g ∈ outer.head?, g.depth = depth) :
    Nested depth (block ++ outer) ↔ Nested depth block ∧ Nested depth outer := by
  have hhead : (block ++ outer).head? = block.head? := head?_append_of_ne_nil block hne
  constructor
  · intro h
    obtain ⟨hfirst, hsecond, hjoint⟩ := isChain_append.1 h.follows
    refine ⟨⟨hhead ▸ h.starts, hfirst, fun f hf => ?_⟩, houter, hsecond, fun f hf => h.ends f ?_⟩
    · cases outer with
      | nil => exact h.ends f (by rwa [append_nil])
      | cons g others =>
        have hg : g.depth = depth := houter g rfl
        have hle := hblock f (mem_of_getLast? hf)
        exact Bool.eq_false_iff.2 fun hheader => absurd ((hjoint f hf g rfl).2.2 hheader) (by omega)
    · exact mem_getLast?_append_of_mem_getLast? hf
  · rintro ⟨hfirst, hsecond⟩
    refine ⟨hhead ▸ hfirst.starts, isChain_append.2 ⟨hfirst.follows, hsecond.follows, fun f hf g hg => ?_⟩, ?_⟩
    · have hle := hblock f (mem_of_getLast? hf)
      have hdepth := houter g hg
      refine ⟨by omega, fun hlt => absurd hlt (by omega), fun hheader => ?_⟩
      rw [hfirst.ends f hf] at hheader
      cases hheader
    · intro f hf
      rw [getLast?_append, Option.mem_def, Option.or_eq_some_iff] at hf
      exact hf.elim (hsecond.ends f) fun hf => hfirst.ends f hf.2

lemma shallow_splitDeeper (depth : Nat) : ∀ ops : List FlatOp, Shallow depth (splitDeeper depth ops).2
  | [] => nofun
  | f :: rest => by
    unfold splitDeeper
    split
    · exact shallow_splitDeeper depth rest
    · next hf => exact fun _ hg => Option.some.inj hg ▸ Nat.not_lt.1 hf

lemma exists_fold_cons {f : FlatOp} (hf : f.depth = depth) : (∃ is, fold depth (f :: rest) = .ok is) ↔
    f.op.isHeader = !(splitDeeper depth rest).1.isEmpty ∧ (∃ body, fold (depth + 1) (splitDeeper depth rest).1 = .ok body) ∧
      ∃ others, fold depth (splitDeeper depth rest).2 = .ok others := by
  have hbody {body : List Instr} (h : fold (depth + 1) (splitDeeper depth rest).1 = .ok body) :
      body.isEmpty = (splitDeeper depth rest).1.isEmpty := by
    rw [← flattenAll_of_fold h (depth_of_splitDeeper depth rest)]
    rcases body with - | ⟨⟨⟩, _⟩ <;> rfl
  constructor
  · rintro ⟨is, h⟩
    obtain ⟨body, others, hinner, hop, houter, -⟩ := (fold_cons_eq_ok (by omega)).1 h
    exact ⟨hbody hinner ▸ hop, ⟨body, hinner⟩, others, houter⟩
  · rintro ⟨hop, ⟨body, hinner⟩, others, houter⟩
    exact ⟨_, (fold_cons_eq_ok (by omega)).2 ⟨body, others, hinner, hbody hinner ▸ hop, houter, rfl⟩⟩

/-- Operations at a depth or deeper fold iff their depths make blocks. -/
lemma exists_fold_iff {ops : List FlatOp} (hdepth : ∀ f ∈ ops, depth ≤ f.depth) :
    (∃ is, fold depth ops = .ok is) ↔ Nested depth ops := by
  match ops with
  | [] => exact ⟨fun _ => nested_nil depth, fun _ => ⟨[], by rw [fold]⟩⟩
  | f :: rest =>
    have hlength := splitDeeper_length depth rest
    have hsplit := splitDeeper_eq depth rest
    have hinner := depth_of_splitDeeper depth rest
    obtain ⟨hf, hrest⟩ := forall_mem_cons.1 hdepth
    by_cases hdeep : depth < f.depth
    · rw [fold, if_pos hdeep]
      exact ⟨by simp, fun h => absurd (h.starts f rfl) (by omega)⟩
    · have hfirst : f.depth = depth := by omega
      have houter : ∀ g ∈ (splitDeeper depth rest).2, depth ≤ g.depth := fun g hg =>
        hrest g (hsplit ▸ mem_append_right _ hg)
      have hhead : ∀ g ∈ (splitDeeper depth rest).2.head?, g.depth = depth := fun g hg =>
        Nat.le_antisymm (shallow_splitDeeper depth rest g hg) (houter g (mem_of_head? hg))
      have hblock : ∀ g ∈ f :: (splitDeeper depth rest).1, depth ≤ g.depth :=
        forall_mem_cons.2 ⟨hf, fun g hg => Nat.le_of_lt (hinner g hg)⟩
      rw [exists_fold_cons hfirst, exists_fold_iff hinner, exists_fold_iff houter, ← and_assoc,
        ← nested_cons hfirst hinner, ← nested_append hblock (cons_ne_nil _ _) hhead, cons_append, hsplit]
termination_by ops.length
decreasing_by all_goals simp only [length_cons]; omega

/-- Folding takes apart what flattening puts together. It succeeds iff the depths start at zero, never go up by
more than one, and go up exactly behind headers. Its results are the instructions that are the given operations
when they are read from top to bottom with their depths, and in which headers, and only they, own a block: so no
line is lost, comes twice or moves to another block, and folding gives back every such list of instructions. -/
theorem fold_inverts_flatten (ops : List FlatOp) :
    ((∃ is, fold 0 ops = .ok is) ↔ Nested 0 ops) ∧
      ∀ is, fold 0 ops = .ok is ↔ AllShaped is ∧ flattenAll 0 is = ops := by
  refine ⟨exists_fold_iff fun f _ => Nat.zero_le f.depth, fun is => ?_⟩
  have hfold {is js : List Instr} : fold 0 (flattenAll 0 is) = .ok js ↔ AllShaped is ∧ js = is := by
    have h := @fold_flattenAll 0 [] nofun is js
    simpa [fold] using h
  constructor
  · intro h
    have hflat := flattenAll_of_fold h fun f _ => Nat.zero_le f.depth
    exact ⟨(hfold.1 (hflat ▸ h)).1, hflat⟩
  · rintro ⟨hshaped, rfl⟩
    exact hfold.2 ⟨hshaped, rfl⟩

end Workflow.Assembly
