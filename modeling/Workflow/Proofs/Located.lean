import Workflow.Proofs.Compilation
import Workflow.Proofs.Flattening
import Workflow.Proofs.SourceMaps

/-!
Programs, lowered with their places. `Stmt.located` and `Decl.located` lower like `Stmt.instrs` and
`Decl.instrs`, but with places instead of line numbers. From top to bottom, the trees have the operations and
origins of the lines of a listing; trees of one shape that are equal from top to bottom are equal.
-/

namespace Workflow

open List Lower

/-! ### Trees of operations with their places -/

/-- An operation with the place it comes from, and the block it owns. -/
inductive Located where
  | mk (op : Op) (place : Option Place) (body : List Located)

namespace Located

def body : Located → List Located
  | mk _ _ body => body

def isFailure : Located → Bool
  | mk .onFailure _ _ => true
  | _ => false

def handler? (event : HandlerEvent) : Located → Option (List Located)
  | mk (.handler e) _ body => if e = event then some body else none
  | _ => none

mutual

def ops : Located → List (Op × Option Place)
  | mk op place body => (op, place) :: allOps body

/-- The operations of trees with their places, from top to bottom. -/
def allOps : List Located → List (Op × Option Place)
  | [] => []
  | l :: rest => l.ops ++ allOps rest

end

mutual

def bare : Located → Instr
  | mk op _ body => .mk 0 op (bareAll body)

def bareAll : List Located → List Instr
  | [] => []
  | l :: rest => l.bare :: bareAll rest

end

lemma allOps_append : ∀ (ls ms : List Located), allOps (ls ++ ms) = allOps ls ++ allOps ms
  | [], _ => rfl
  | l :: ls, ms => by
    rw [cons_append, allOps, allOps, allOps_append ls ms, append_assoc]

lemma bareAll_append : ∀ (ls ms : List Located), bareAll (ls ++ ms) = bareAll ls ++ bareAll ms
  | [], _ => rfl
  | l :: ls, ms => by rw [cons_append, bareAll, bareAll, bareAll_append ls ms, cons_append]

lemma allOps_flatMap {α : Type} (f : α → List Located) : ∀ as : List α,
    allOps (as.flatMap f) = as.flatMap fun a => allOps (f a)
  | [] => rfl
  | a :: as => by rw [flatMap_cons, flatMap_cons, allOps_append, allOps_flatMap f as]

lemma bareAll_flatMap {α : Type} (f : α → List Located) : ∀ as : List α,
    bareAll (as.flatMap f) = as.flatMap fun a => bareAll (f a)
  | [] => rfl
  | a :: as => by rw [flatMap_cons, flatMap_cons, bareAll_append, bareAll_flatMap f as]

mutual

theorem map_fst_ops : ∀ (l : Located) (depth : Nat), l.ops.map Prod.fst = (l.bare.flatten depth).map FlatOp.op
  | mk op place body, depth => by
    rw [ops, bare, Instr.flatten, map_cons, map_cons, map_fst_allOps body (depth + 1)]

theorem map_fst_allOps : ∀ (ls : List Located) (depth : Nat),
    (allOps ls).map Prod.fst = (Instr.flattenAll depth (bareAll ls)).map FlatOp.op
  | [], _ => rfl
  | l :: rest, depth => by
    rw [allOps, bareAll, Instr.flattenAll, map_append, map_append, map_fst_ops l depth, map_fst_allOps rest depth]

end

lemma length_ops {l m : Located} (h : l.bare = m.bare) : l.ops.length = m.ops.length := by
  have hops := map_fst_ops l 0
  rw [h, ← map_fst_ops m 0] at hops
  simpa using congrArg List.length hops

mutual

theorem eq_of_ops : ∀ {l m : Located}, l.bare = m.bare → l.ops = m.ops → l = m
  | mk op place body, mk op' place' body', hbare, hops => by
    simp only [bare, Instr.mk.injEq, true_and] at hbare
    simp only [ops, List.cons.injEq, Prod.mk.injEq] at hops
    rw [hbare.1, hops.1.2, eq_of_allOps hbare.2 hops.2]

theorem eq_of_allOps : ∀ {ls ms}, bareAll ls = bareAll ms → allOps ls = allOps ms → ls = ms
  | [], [], _, _ => rfl
  | [], _ :: _, hbare, _ | _ :: _, [], hbare, _ => by cases hbare
  | l :: ls, m :: ms, hbare, hops => by
    rw [bareAll, bareAll, List.cons.injEq] at hbare
    rw [allOps, allOps] at hops
    obtain ⟨hl, hls⟩ := append_inj hops (length_ops hbare.1)
    rw [eq_of_ops hbare.1 hl, eq_of_allOps hbare.2 hls]

end

end Located

mutual

def Instr.located (place : Nat → Option Place) : Instr → Located
  | .mk line op body => .mk op (place line) (Instr.allLocated place body)

def Instr.allLocated (place : Nat → Option Place) : List Instr → List Located
  | [] => []
  | i :: rest => i.located place :: Instr.allLocated place rest

end

namespace Instr

variable (place : Nat → Option Place)

lemma allLocated_eq_map (is : List Instr) : allLocated place is = is.map (located place) := by
  induction is with
  | nil => rfl
  | cons i rest ih => rw [allLocated, map_cons, ih]

mutual

theorem bare_located : ∀ i : Instr, (i.located place).bare = i.bare
  | .mk line op body => by rw [located, Located.bare, bare, bareAll_located body]

theorem bareAll_located : ∀ is : List Instr, Located.bareAll (allLocated place is) = bareAll is
  | [] => rfl
  | i :: rest => by rw [allLocated, Located.bareAll, bareAll, bare_located i, bareAll_located rest]

end

mutual

theorem ops_located : ∀ (i : Instr) (depth : Nat),
    (i.located place).ops = (i.flatten depth).map fun f => (f.op, place f.line)
  | .mk line op body, depth => by
    rw [located, Located.ops, flatten, map_cons, allOps_located body (depth + 1)]

theorem allOps_located : ∀ (is : List Instr) (depth : Nat), Located.allOps (allLocated place is) =
    (flattenAll depth is).map fun f => (f.op, place f.line)
  | [], _ => rfl
  | i :: rest, depth => by
    rw [allLocated, Located.allOps, flattenAll, map_append, ops_located i depth, allOps_located rest depth]

end

end Instr

/-! ### The trees of programs -/

open Located

/-- The operation that a statement begins with. -/
def Stmt.op (s : Stmt) : Op := (s.instrs.head s.instrs_ne_nil).op

mutual

/-- A statement of a file, lowered: each operation comes from the statement, the case of a match from the case,
and an `else` from the first statement behind it. -/
def Stmt.located (file : String) : Stmt → List Located
  | .loop max body span =>
    [.mk (.loop (max.map (·.node))) (some (span.placeIn file)) (Stmt.allLocated file body)]
  | .forEach var iterable body span =>
    [.mk (.forEach var.node iterable.term) (some (span.placeIn file)) (Stmt.allLocated file body)]
  | .branch condition thenBody elseBody span =>
    .mk (.branch condition.term) (some (span.placeIn file)) (Stmt.allLocated file thenBody) ::
      elseBody.head?.toList.map fun first =>
        .mk .otherwise (some (first.span.placeIn file)) (Stmt.allLocated file elseBody)
  | .select subject arms span =>
    [.mk (.select subject.term) (some (span.placeIn file)) (Arm.allLocated file arms)]
  | .failure body span => [.mk .onFailure (some (span.placeIn file)) (Stmt.allLocated file body)]
  | s => [.mk s.op (some (s.span.placeIn file)) []]

def Stmt.allLocated (file : String) : List Stmt → List Located
  | [] => []
  | s :: rest => s.located file ++ Stmt.allLocated file rest

def Arm.allLocated (file : String) : List Arm → List Located
  | [] => []
  | .mk pattern body span :: rest =>
    .mk (.arm (pattern.map (·.node.value))) (some (span.placeIn file)) (body.located file) :: Arm.allLocated file rest

end

def Decl.body : Decl → List Stmt
  | .flow d => d.body
  | .handler d => d.body
  | _ => []

def Decl.located (file name : String) (d : Decl) : List Located :=
  (d.instrs name).map fun i => .mk i.op (some (d.span.placeIn file)) (Stmt.allLocated file d.body)

/-- Programs, lowered: their definitions, then their handlers. -/
def Located.ofPrograms (programs : List Program) : List Located :=
  ((Definitions.listed programs).flatMap fun d => d.decl.located d.file d.name) ++
    programs.flatMap fun p => (handlers p).flatMap (Decl.located p.name "")

mutual

theorem Stmt.bareAll_located (file : String) : ∀ s : Stmt, bareAll (s.located file) = s.instrs
  | .loop .. | .forEach .. | .failure .. | .select .. => by
    simp only [Stmt.located, bareAll, bare, Stmt.bareAll_allLocated, Arm.bareAll_allLocated, Stmt.instrs]
  | .branch _ _ elseBody _ => by
    cases elseBody <;> simp [Stmt.located, bareAll, bare, Stmt.bareAll_allLocated, Stmt.instrs]
  | .assign .. | .setPath .. | .run .. | .parallel .. | .ret none _ | .ret (some _) _ | .continue _
  | .abort .. | .push .. | .log .. | .guard _ => rfl

theorem Stmt.bareAll_allLocated (file : String) : ∀ ss : List Stmt,
    bareAll (Stmt.allLocated file ss) = Stmt.allInstrs ss
  | [] => rfl
  | s :: rest => by
    rw [Stmt.allLocated, bareAll_append, Stmt.bareAll_located file s, Stmt.bareAll_allLocated file rest, Stmt.allInstrs]

theorem Arm.bareAll_allLocated (file : String) : ∀ as : List Arm, bareAll (Arm.allLocated file as) = Arm.allInstrs as
  | [] => rfl
  | .mk _ body _ :: rest => by
    rw [Arm.allLocated, bareAll, bare, Stmt.bareAll_located file body, Arm.bareAll_allLocated file rest, Arm.allInstrs]

end

def Lower.Step.opIn (file : String) (s : Lower.Step) : Op × Option Place :=
  (s.op, some (s.span.placeIn file))

mutual

theorem Stmt.allOps_located (file : String) : ∀ (s : Stmt) (depth : Nat),
    allOps (s.located file) = (stmt depth s).map (Lower.Step.opIn file)
  | .loop .., depth | .forEach .., depth | .failure .., depth | .select .., depth => by
    simp [Stmt.located, allOps, ops, stmt, Lower.Step.opIn, Stmt.allOps_allLocated file _ (depth + 1),
      Arm.allOps_allLocated file _ (depth + 1)]
  | .branch _ _ elseBody _, depth => by
    cases elseBody <;> simp [Stmt.located, allOps, ops, stmt, Lower.Step.opIn,
      Stmt.allOps_allLocated file _ (depth + 1), block]
  | .assign .., _ | .setPath .., _ | .run .., _ | .parallel .., _ | .ret none _, _ | .ret (some _) _, _
  | .continue _, _ | .abort .., _ | .push .., _ | .log .., _ | .guard _, _ => rfl

theorem Stmt.allOps_allLocated (file : String) : ∀ (ss : List Stmt) (depth : Nat),
    allOps (Stmt.allLocated file ss) = (block depth ss).map (Lower.Step.opIn file)
  | [], _ => rfl
  | s :: rest, depth => by
    rw [Stmt.allLocated, allOps_append, Stmt.allOps_located file s depth,
      Stmt.allOps_allLocated file rest depth, block, map_append]

theorem Arm.allOps_allLocated (file : String) : ∀ (as : List Arm) (depth : Nat),
    allOps (Arm.allLocated file as) = (arms depth as).map (Lower.Step.opIn file)
  | [], _ => rfl
  | .mk _ body _ :: rest, depth => by
    simp [Arm.allLocated, allOps, ops, arms, Lower.Step.opIn,
      Stmt.allOps_located file body (depth + 1), Arm.allOps_allLocated file rest depth]

end

lemma Decl.bareAll_located (file name : String) (d : Decl) : bareAll (d.located file name) = d.instrs name := by
  cases d with
  | flow d | handler d =>
    simp [Decl.located, Decl.instrs, Decl.body, bareAll, bare, Instr.op, Stmt.bareAll_allLocated]
  | _ => rfl

lemma Decl.allOps_located (file name : String) (d : Decl) :
    allOps (d.located file name) = (decl name d).map (Lower.Step.opIn file) := by
  cases d with
  | flow d | handler d =>
    simp [Decl.located, Decl.instrs, Decl.body, allOps, ops, Instr.op, decl,
      Lower.Step.opIn, Decl.span, Stmt.allOps_allLocated file d.body 1]
  | _ => rfl

namespace Lower

variable {comments : Bool} {l : Placed}

lemma op?_placed (comments : Bool) (file name : String) (d : Decl) :
    (placed comments file name d).filterMap Placed.op? = allOps (d.located file name) := by
  have hsteps : ((decl name d).map fun s => (⟨⟨s.depth, .op s.op⟩, some (file, s.span)⟩ : Placed)).filterMap
      Placed.op? = (decl name d).map (Step.opIn file) := by
    rw [filterMap_map, ← filterMap_eq_map]
    rfl
  rw [placed, filterMap_append, hsteps, Decl.allOps_located]
  cases comments <;> rfl

lemma marked_placed (h : l ∈ placed comments file name d) : l.Marked := by
  rcases mem_append.1 h with h | h
  · cases comments with
    | false => cases h
    | true =>
      obtain rfl := mem_singleton.1 h
      rfl
  · obtain ⟨s, -, rfl⟩ := mem_map.1 h
    rfl

lemma marked_lines (h : l ∈ lines comments defs programs) : l.Marked := by
  rcases mem_append.1 h with h | h
  · obtain ⟨d, -, h⟩ := mem_flatMap.1 h
    exact marked_placed h
  · obtain ⟨p, -, h⟩ := mem_flatMap.1 h
    obtain ⟨d, -, h⟩ := mem_flatMap.1 h
    exact marked_placed h

lemma op?_lines (comments : Bool) (programs : List Program) :
    (lines comments (Definitions.listed programs) programs).filterMap Placed.op? = allOps (ofPrograms programs) := by
  simp only [lines, ofPrograms, filterMap_append, filterMap_flatMap, allOps_append, allOps_flatMap, op?_placed]

end Lower

lemma Located.bareAll_ofPrograms (programs : List Program) : bareAll (ofPrograms programs) =
      (order (Definitions.listed programs) programs).flatMap fun e => e.2.instrs e.1 := by
  simp only [ofPrograms, order, bareAll_append, bareAll_flatMap,
    Decl.bareAll_located, flatMap_append, flatMap_map, flatMap_assoc]

end Workflow
