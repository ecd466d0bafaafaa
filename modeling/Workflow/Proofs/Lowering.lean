import Workflow.Listing.OfProgram
import Workflow.Proofs.Blocks

/-!
The listing of a block, folded, is the block again. `Stmt.instrs` lowers statements without the way over lines.
What folding builds from the lines of a block is, line numbers aside, the lowering of the block, if no block is
empty and the lines that follow are not deeper.
-/

namespace Workflow

open List Instr Stmt Lower

/-! ### Lowering by structure -/

mutual

/-- The instructions of a statement, all on line 0. -/
def Stmt.instrs : Stmt → List Instr
  | .assign target value _ => [.mk 0 (.assign target.node value.term) []]
  | .setPath target path value _ =>
    [.mk 0 (.setPath target.node (plainNames path) value.term) []]
  | .run target invocation onEscalate _ => [.mk 0 (runOp target onEscalate invocation) []]
  | .parallel body _ => [.mk 0 (.parallel (body.filterMap branch?)) []]
  | .loop max body _ => [.mk 0 (.loop (max.map (·.node))) (Stmt.allInstrs body)]
  | .forEach var iterable body _ =>
    [.mk 0 (.forEach var.node iterable.term) (Stmt.allInstrs body)]
  | .branch condition thenBody elseBody _ =>
    .mk 0 (.branch condition.term) (Stmt.allInstrs thenBody) ::
      if elseBody.isEmpty then [] else [.mk 0 .otherwise (Stmt.allInstrs elseBody)]
  | .select subject arms _ => [.mk 0 (.select subject.term) (Arm.allInstrs arms)]
  | .failure body _ => [.mk 0 .onFailure (Stmt.allInstrs body)]
  | .ret none _ => [.mk 0 (.ret (.literal .null)) []]
  | .ret (some value) _ => [.mk 0 (.ret value.term) []]
  | .continue _ => [.mk 0 .continue []]
  | .abort message _ => [.mk 0 (.abort (message.map Expr.term)) []]
  | .push value target _ => [.mk 0 (.push value.term target.node) []]
  | .log message _ => [.mk 0 (.log message.term) []]
  | .guard g => [.mk 0 (.guard g.kind g.guardrail.node (g.message.map (·.node))) []]

def Stmt.allInstrs : List Stmt → List Instr
  | [] => []
  | s :: rest => s.instrs ++ Stmt.allInstrs rest

def Arm.allInstrs : List Arm → List Instr
  | [] => []
  | .mk pattern body _ :: rest =>
    .mk 0 (.arm (pattern.map (·.node.value))) body.instrs :: Arm.allInstrs rest

end

lemma Stmt.instrs_ne_nil (s : Stmt) : s.instrs ≠ [] := by
  cases s with
  | ret value => cases value <;> simp [instrs]
  | _ => simp [instrs]

lemma Stmt.isEmpty_allInstrs (ss : List Stmt) : (allInstrs ss).isEmpty = ss.isEmpty := by
  cases ss with
  | nil => rfl
  | cons s rest => simp [allInstrs, s.instrs_ne_nil]

lemma Arm.isEmpty_allInstrs (as : List Arm) : (Arm.allInstrs as).isEmpty = as.isEmpty := by
  rcases as with - | ⟨⟨⟩, rest⟩ <;> rfl

lemma Stmt.allInstrs_append : ∀ (ss ts : List Stmt), allInstrs (ss ++ ts) = allInstrs ss ++ allInstrs ts
  | [], _ => rfl
  | s :: ss, ts => by
    rw [cons_append, allInstrs, allInstrs, allInstrs_append ss ts, append_assoc]

/-! ### Folding lines -/

mutual

def Instr.flatten (depth : Nat) : Instr → List FlatOp
  | .mk line op body => ⟨line, depth, op⟩ :: flattenAll (depth + 1) body

/-- The operations of instructions at a depth, from top to bottom. -/
def Instr.flattenAll (depth : Nat) : List Instr → List FlatOp
  | [] => []
  | i :: rest => i.flatten depth ++ flattenAll depth rest

end

mutual

/-- Headers own a block, and other instructions do not. -/
def Instr.Shaped : Instr → Prop
  | .mk _ op body => op.isHeader = !body.isEmpty ∧ Instr.AllShaped body

def Instr.AllShaped : List Instr → Prop
  | [] => True
  | i :: rest => i.Shaped ∧ Instr.AllShaped rest

end

namespace Instr

lemma flattenAll_append (depth : Nat) (js : List Instr) : ∀ is : List Instr,
    flattenAll depth (is ++ js) = flattenAll depth is ++ flattenAll depth js
  | [] => rfl
  | i :: is => by
    rw [cons_append, flattenAll, flattenAll, flattenAll_append depth js is, append_assoc]

lemma allShaped_append : ∀ {is}, AllShaped (is ++ js) ↔ AllShaped is ∧ AllShaped js
  | [] => by simp [AllShaped]
  | i :: is => by rw [cons_append, AllShaped, AllShaped, allShaped_append, and_assoc]

mutual

theorem depth_flatten (depth : Nat) : ∀ i : Instr, ∀ f ∈ i.flatten depth, depth ≤ f.depth
  | .mk line op body => by
    rw [flatten, forall_mem_cons]
    exact ⟨Nat.le_refl depth, fun f hf => Nat.le_of_succ_le (depth_flattenAll (depth + 1) body f hf)⟩

theorem depth_flattenAll (depth : Nat) : ∀ is : List Instr, ∀ f ∈ flattenAll depth is, depth ≤ f.depth
  | [] => nofun
  | i :: rest => by
    rw [flattenAll, forall_mem_append]
    exact ⟨depth_flatten depth i, depth_flattenAll depth rest⟩

end

end Instr

namespace Assembly

/-- The first of some operations, if there is one, is not deeper than a depth. -/
def Shallow (depth : Nat) (ops : List FlatOp) : Prop := ∀ f ∈ ops.head?, f.depth ≤ depth

lemma shallow_flattenAll (hrest : Shallow depth rest) (is : List Instr) :
    Shallow depth (flattenAll depth is ++ rest) := by
  rcases is with - | ⟨⟨line, op, body⟩, others⟩
  · exact hrest
  · intro f hf
    obtain rfl : _ = f := Option.some.inj hf
    exact Nat.le_refl depth

lemma splitDeeper_append : ∀ {inner outer}, (∀ f ∈ inner, depth < f.depth) → Shallow depth outer →
    splitDeeper depth (inner ++ outer) = (inner, outer)
  | [], [], _, _ => rfl
  | [], f :: rest, _, h => by
    have hf : f.depth ≤ depth := h f rfl
    simp [splitDeeper, Nat.not_lt.2 hf]
  | f :: inner, outer, hinner, houter => by
    have hf : depth < f.depth := hinner f mem_cons_self
    have ih := splitDeeper_append (fun g hg => hinner g (.tail _ hg)) houter
    simp [splitDeeper, hf, ih]

lemma instruction_eq_ok {body : List Instr} :
    instruction f body = .ok i ↔ f.op.isHeader = !body.isEmpty ∧ i = .mk f.line f.op body := by
  unfold instruction
  cases f.op.isHeader <;> cases body.isEmpty <;> simp [eq_comm]

lemma fold_cons_eq_ok {depth : Nat} {f : FlatOp} {rest : List FlatOp} {is : List Instr}
    (hf : ¬ depth < f.depth) : fold depth (f :: rest) = .ok is ↔ ∃ body others,
      fold (depth + 1) (splitDeeper depth rest).1 = .ok body ∧ f.op.isHeader = !body.isEmpty ∧
        fold depth (splitDeeper depth rest).2 = .ok others ∧ is = .mk f.line f.op body :: others := by
  rw [fold, if_neg hf]
  constructor
  · intro h
    obtain ⟨body, hbody, h⟩ := Except.bind_eq_ok.1 h
    obtain ⟨i, hi, h⟩ := Except.bind_eq_ok.1 h
    obtain ⟨others, hothers, h⟩ := Except.bind_eq_ok.1 h
    obtain ⟨hop, rfl⟩ := instruction_eq_ok.1 hi
    cases h
    exact ⟨body, others, hbody, hop, hothers, rfl⟩
  · rintro ⟨body, others, hbody, hop, hothers, rfl⟩
    refine Except.bind_eq_ok.2 ⟨body, hbody, Except.bind_eq_ok.2 ⟨_, instruction_eq_ok.2 ⟨hop, rfl⟩, ?_⟩⟩
    exact Except.bind_eq_ok.2 ⟨others, hothers, rfl⟩

lemma fold_flattenAll (hrest : Shallow depth rest) :
    ∀ (is : List Instr) {js}, fold depth (Instr.flattenAll depth is ++ rest) = .ok js ↔
      Instr.AllShaped is ∧ ∃ others, fold depth rest = .ok others ∧ js = is ++ others
  | [], js => by simp [Instr.flattenAll, Instr.AllShaped]
  | .mk line op body :: is, js => by
    have hinner := fun {b} => @fold_flattenAll (depth + 1) [] (fun _ h => absurd h (by simp)) body b
    have houter := fun {js} => @fold_flattenAll depth rest hrest is js
    rw [append_nil] at hinner
    rw [Instr.flattenAll, Instr.flatten, append_assoc, cons_append,
      fold_cons_eq_ok (Nat.lt_irrefl depth), splitDeeper_append (Instr.depth_flattenAll (depth + 1) body)
        (shallow_flattenAll hrest is)]
    simp only [hinner, houter, fold, Instr.AllShaped, Instr.Shaped]
    constructor
    · rintro ⟨_, _, ⟨hbody, _, ⟨⟩, rfl⟩, hop, ⟨his, others, hothers, rfl⟩, rfl⟩
      rw [append_nil] at hop ⊢
      exact ⟨⟨⟨hop, hbody⟩, his⟩, others, hothers, rfl⟩
    · rintro ⟨⟨⟨hop, hbody⟩, his⟩, others, hothers, rfl⟩
      exact ⟨body, _, ⟨hbody, [], rfl, (append_nil body).symm⟩, hop, ⟨his, others, hothers, rfl⟩, rfl⟩

end Assembly

/-! ### Lines of statements -/

def Lower.Step.flat (s : Lower.Step) : FlatOp := ⟨0, s.depth, s.op⟩

namespace Lower

mutual

theorem flat_stmt : ∀ (depth : Nat) (s : Stmt), (stmt depth s).map Step.flat = Instr.flattenAll depth s.instrs
  | _, .loop .. | _, .forEach .. | _, .failure .. | _, .select .. => by
    simp [stmt, Stmt.instrs, Instr.flattenAll, Instr.flatten, Step.flat, flat_block, flat_arms]
  | _, .branch _ _ elseBody _ => by
    cases elseBody <;>
      simp [stmt, Stmt.instrs, Stmt.allInstrs, Instr.flattenAll, Instr.flatten, Step.flat, flat_block]
  | _, .assign .. | _, .setPath .. | _, .run .. | _, .parallel .. | _, .ret none _ | _, .ret (some _) _
  | _, .continue .. | _, .abort .. | _, .push .. | _, .log .. | _, .guard .. => rfl

theorem flat_block : ∀ (depth : Nat) (ss : List Stmt),
    (block depth ss).map Step.flat = flattenAll depth (Stmt.allInstrs ss)
  | _, [] => rfl
  | depth, s :: rest => by
    rw [block, map_append, flat_stmt depth s, flat_block depth rest, Stmt.allInstrs, flattenAll_append]

theorem flat_arms : ∀ (depth : Nat) (as : List Arm),
    (arms depth as).map Step.flat = Instr.flattenAll depth (Arm.allInstrs as)
  | _, [] => rfl
  | depth, .mk _ body _ :: rest => by
    simp [arms, Arm.allInstrs, Instr.flattenAll, Instr.flatten, Step.flat, flat_stmt (depth + 1) body,
      flat_arms depth rest]

end

end Lower

mutual

theorem Stmt.allShaped_instrs : ∀ s : Stmt, Instr.AllShaped s.instrs ↔ s.Full
  | .loop .. | .forEach .. | .failure .. | .select .. => by
    simp [Stmt.instrs, Instr.AllShaped, Instr.Shaped, Stmt.Full, Op.isHeader, Stmt.isEmpty_allInstrs,
      Arm.isEmpty_allInstrs, Stmt.allShaped_allInstrs, Arm.allShaped_allInstrs]
  | .branch _ _ elseBody _ => by
    cases elseBody <;> simp [Stmt.instrs, Instr.AllShaped, Instr.Shaped, Stmt.Full, Stmt.AllFull, Op.isHeader,
      Stmt.isEmpty_allInstrs, Stmt.allShaped_allInstrs, and_assoc]
  | .run _ (.agent ..) _ _ | .run _ (.prompt ..) _ _ | .run _ (.flow ..) _ _ | .assign .. | .setPath ..
  | .parallel .. | .ret none _ | .ret (some _) _ | .continue .. | .abort .. | .push .. | .log ..
  | .guard .. => by
    simp [Stmt.instrs, runOp, Instr.AllShaped, Instr.Shaped, Stmt.Full, Op.isHeader]

theorem Stmt.allShaped_allInstrs : ∀ ss : List Stmt, Instr.AllShaped (Stmt.allInstrs ss) ↔ Stmt.AllFull ss
  | [] => Iff.rfl
  | s :: rest => by
    rw [Stmt.allInstrs, allShaped_append, Stmt.allShaped_instrs s, Stmt.allShaped_allInstrs rest, Stmt.AllFull]

theorem Arm.allShaped_allInstrs : ∀ as : List Arm, Instr.AllShaped (Arm.allInstrs as) ↔ Arm.AllFull as
  | [] => Iff.rfl
  | .mk _ body _ :: rest => by
    simp [Arm.allInstrs, Instr.AllShaped, Instr.Shaped, Arm.AllFull, Op.isHeader, body.instrs_ne_nil,
      Stmt.allShaped_instrs body, Arm.allShaped_allInstrs rest]

end

/-! ### Line numbers aside -/

mutual

def Instr.bare : Instr → Instr
  | .mk _ op body => .mk 0 op (bareAll body)

/-- Instructions with all their line numbers set to 0. -/
def Instr.bareAll : List Instr → List Instr
  | [] => []
  | i :: rest => i.bare :: bareAll rest

end

@[simp] lemma Instr.bare_op (i : Instr) : i.bare.op = i.op := by cases i; rfl

lemma Instr.bare_mem : ∀ {is}, i ∈ is → i.bare ∈ bareAll is
  | j :: is, h => by
    rcases mem_cons.1 h with rfl | h
    · exact .head _
    · exact .tail _ (bare_mem h)

lemma Instr.bareAll_eq_nil : bareAll is = [] ↔ is = [] := by
  cases is <;> simp [bareAll]

lemma Instr.bareAll_eq_cons {op : Op} {body : List Instr} : bareAll is = .mk 0 op body :: rest ↔ ∃ line inner others,
      is = .mk line op inner :: others ∧ bareAll inner = body ∧ bareAll others = rest := by
  rcases is with - | ⟨⟨line, op', inner⟩, others⟩
  · simp [bareAll]
  · constructor
    · intro h
      simp only [bareAll, bare, List.cons.injEq, Instr.mk.injEq, true_and] at h
      exact ⟨line, inner, others, by rw [h.1.1], h.1.2, h.2⟩
    · rintro ⟨_, _, _, h, rfl, rfl⟩
      cases h
      rfl

lemma Instr.bareAll_append : ∀ (is js : List Instr), bareAll (is ++ js) = bareAll is ++ bareAll js
  | [], _ => rfl
  | i :: is, js => by
    rw [cons_append, bareAll, bareAll, bareAll_append is js, cons_append]

lemma Instr.bareAll_eq_singleton {op : Op} {body : List Instr} (h : bareAll is = [.mk 0 op body]) :
    ∃ line inner, is = [.mk line op inner] ∧ bareAll inner = body := by
  obtain ⟨line, inner, others, rfl, hinner, hothers⟩ := bareAll_eq_cons.1 h
  exact ⟨line, inner, by rw [bareAll_eq_nil.1 hothers], hinner⟩

lemma Instr.bareAll_eq_append : ∀ {front back},
    bareAll is = front ++ back → ∃ js ks, is = js ++ ks ∧ bareAll js = front ∧ bareAll ks = back
  | [], back, h => ⟨[], is, rfl, rfl, h⟩
  | i :: front, back, h => by
    rcases is with - | ⟨j, is⟩
    · simp [bareAll] at h
    · rw [bareAll, cons_append, List.cons.injEq] at h
      obtain ⟨js, ks, rfl, hjs, hks⟩ := bareAll_eq_append h.2
      exact ⟨j :: js, ks, rfl, by rw [bareAll, h.1, hjs], hks⟩

/-- An operation with its line number set to 0. -/
def FlatOp.bare (f : FlatOp) : FlatOp := { f with line := 0 }

namespace Assembly

lemma splitDeeper_bare (depth : Nat) : ∀ ops : List FlatOp, splitDeeper depth (ops.map FlatOp.bare) =
      ((splitDeeper depth ops).1.map FlatOp.bare, (splitDeeper depth ops).2.map FlatOp.bare)
  | [] => rfl
  | f :: rest => by
    have ih := splitDeeper_bare depth rest
    by_cases h : depth < f.depth
    · simp [splitDeeper, FlatOp.bare, h, ih]
    · simp [splitDeeper, FlatOp.bare, h]

lemma fold_bare (ops : List FlatOp) (depth : Nat) {is : List Instr} :
    fold depth (ops.map FlatOp.bare) = .ok is ↔ ∃ js, fold depth ops = .ok js ∧ bareAll js = is := by
  match ops with
  | [] => simp [fold, bareAll]
  | f :: rest =>
    have hlength := splitDeeper_length depth rest
    by_cases hf : depth < f.depth
    · rw [map_cons, fold, if_pos (show depth < f.bare.depth from hf), fold, if_pos hf]
      simp
    · have hempty : ∀ body : List Instr, (bareAll body).isEmpty = body.isEmpty := by rintro (- | _) <;> rfl
      have hbody := fun {is} => @fold_bare (splitDeeper depth rest).1 (depth + 1) is
      have hothers := fun {is} => @fold_bare (splitDeeper depth rest).2 depth is
      simp only [map_cons, fold_cons_eq_ok (f := f.bare) hf, splitDeeper_bare, fold_cons_eq_ok hf, hbody, hothers]
      constructor
      · rintro ⟨_, _, ⟨body, hb, rfl⟩, hop, ⟨others, ho, rfl⟩, rfl⟩
        exact ⟨_, ⟨body, others, hb, hempty body ▸ hop, ho, rfl⟩, rfl⟩
      · rintro ⟨_, ⟨body, others, hb, hop, ho, rfl⟩, rfl⟩
        exact ⟨_, _, ⟨body, hb, rfl⟩, (hempty body).symm ▸ hop, ⟨others, ho, rfl⟩, rfl⟩
termination_by ops.length
decreasing_by all_goals simp only [length_cons]; omega

end Assembly

/-! ### Listings -/

def Line.flat? (l : Line) : Option FlatOp :=
  match l.content with
  | .op o => some ⟨0, l.depth, o⟩
  | .comment _ => none

lemma Listing.flat_bare (lines : Listing) : lines.flat.map FlatOp.bare = lines.filterMap Line.flat? := by
  have hindex : ∀ (lines : Listing) (n : Nat), ((lines.zipIdx n).filterMap fun x =>
      match x.1.content with
      | .op o => some (⟨x.2 + 1, x.1.depth, o⟩ : FlatOp)
      | .comment _ => none).map FlatOp.bare = lines.filterMap Line.flat? := by
    intro lines
    induction lines with
    | nil => exact fun n => rfl
    | cons l rest ih =>
      intro n
      rw [zipIdx_cons, filterMap_cons, filterMap_cons]
      rcases l with ⟨depth, o | text⟩
      · exact congrArg _ (ih (n + 1))
      · exact ih (n + 1)
  exact hindex lines 0

def Decl.instrs (name : String) : Decl → List Instr
  | .importDecl _ => []
  | .model d => [.mk 0 (.model (modelSpec d)) []]
  | .schema d => [.mk 0 (.schema (schemaSpec d)) []]
  | .tool d => [.mk 0 (.tool ⟨d.name.node, d.kind, d.target.node⟩) []]
  | .retry d => [.mk 0 (.retry ⟨d.name.node, d.attempts.node, d.backoff⟩) []]
  | .timeout d => [.mk 0 (.timeout ⟨d.name.node, d.seconds.node⟩) []]
  | .guardrail d => [.mk 0 (.guardrail ⟨d.name.node, d.pattern.node⟩) []]
  | .prompt d => [.mk 0 (.prompt (promptSpec d)) []]
  | .agent d => [.mk 0 (.agent (agentSpec name d)) []]
  | .flow d => [.mk 0 (.flow d.name.node (plainNames d.params)) (allInstrs d.body)]
  | .handler d => [.mk 0 (.handler d.event.node) (allInstrs d.body)]

lemma Decl.flat_instrs (name : String) (d : Decl) :
    (decl name d).map Lower.Step.flat = Instr.flattenAll 0 (d.instrs name) ∧
      (Instr.AllShaped (d.instrs name) ↔ d.Full) := by
  cases d with
  | flow d | handler d =>
    simp [decl, Decl.instrs, Instr.flattenAll, Instr.flatten, Lower.Step.flat, flat_block,
      Instr.AllShaped, Instr.Shaped, Decl.Full, Op.isHeader, isEmpty_allInstrs, allShaped_allInstrs]
  | importDecl d => exact ⟨rfl, Iff.rfl⟩
  | _ => exact ⟨rfl, by simp [Decl.instrs, Instr.AllShaped, Instr.Shaped, Decl.Full, Op.isHeader]⟩

namespace Assembly

lemma fold_decls (ds : List (String × Decl)) :
    fold 0 ((ds.flatMap fun d => decl d.1 d.2).map Lower.Step.flat) = .ok is ↔
      (∀ d ∈ ds, d.2.Full) ∧ is = ds.flatMap fun d => d.2.instrs d.1 := by
  have hlines : (ds.flatMap fun d => decl d.1 d.2).map Lower.Step.flat =
      flattenAll 0 (ds.flatMap fun d => d.2.instrs d.1) ∧
      (Instr.AllShaped (ds.flatMap fun d => d.2.instrs d.1) ↔ ∀ d ∈ ds, d.2.Full) := by
    induction ds with
    | nil => simp [flattenAll, Instr.AllShaped]
    | cons d ds ih =>
      obtain ⟨hflat, hshaped⟩ := d.2.flat_instrs d.1
      rw [flatMap_cons, flatMap_cons, map_append, flattenAll_append, allShaped_append,
        hflat, ih.1, hshaped, ih.2, forall_mem_cons]
      exact ⟨rfl, Iff.rfl⟩
  have hfold := @fold_flattenAll 0 [] (fun _ h => absurd h (by simp)) (ds.flatMap fun d => d.2.instrs d.1) is
  rw [append_nil, ← hlines.1, hlines.2] at hfold
  simpa [fold] using hfold

end Assembly

end Workflow
