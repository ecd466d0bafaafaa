import Mathlib.Tactic.Lemma
import Workflow.Analysis.Basic

/-!
What checks ask of definitions: whether a name of a kind is defined, which names a kind has, and how many
parameters a flow takes. Definitions that agree on these find the same problems.
-/

namespace Workflow

/-- Definitions that answer what checks ask in the same way. -/
structure Definitions.Agree (defs others : Definitions) : Prop where
  contains : ∀ kind name, defs.contains kind name = others.contains kind name
  names : ∀ kind, defs.names kind = others.names kind
  flowArity? : ∀ name, defs.flowArity? name = others.flowArity? name

namespace Definitions.Agree

open Analysis

variable {defs others : Definitions} (h : defs.Agree others)

include h

lemma resolve_eq : resolve defs = resolve others := by
  funext kind name
  simp only [resolve, h.contains, h.names]

lemma checkTarget_eq : checkTarget defs = checkTarget others := by
  funext span invocation
  cases invocation <;> simp only [checkTarget, h.resolve_eq, h.flowArity?]

lemma checkRun_eq : checkRun defs = checkRun others := by
  funext scope c invocation onEscalate span
  simp only [checkRun, h.checkTarget_eq]

lemma checkGuard_eq : checkGuard defs = checkGuard others := by
  funext c g
  simp only [checkGuard, h.contains, h.names]

lemma checkBranch_eq : checkBranch defs = checkBranch others := by
  funext scope c s
  unfold checkBranch
  split <;> simp only [h.checkRun_eq]

lemma checkFields_eq : ∀ (fields : List FieldDef) (seen : List String),
    checkFields defs seen fields = checkFields others seen fields
  | [], _ => rfl
  | f :: rest, seen => by simp only [checkFields, h.contains, checkFields_eq rest]

end Definitions.Agree

namespace Analysis

variable {defs others : Definitions}

mutual

theorem checkStmt_of_agree (h : defs.Agree others) (c : Context) (w : Walk) : ∀ s : Stmt,
    checkStmt defs c w s = checkStmt others c w s
  | .assign .. | .setPath .. | .ret .. | .continue _ | .abort .. | .push .. | .log .. => rfl
  | .run .. | .parallel .. | .guard _ => by
    simp only [checkStmt, h.checkRun_eq, h.checkBranch_eq, h.checkGuard_eq]
  | .loop .. | .forEach .. | .failure .. | .branch .. | .select .. => by
    simp only [checkStmt, checkBlock_of_agree h, checkArms_of_agree h]

theorem checkBlock_of_agree (h : defs.Agree others) (c : Context) (w : Walk) : ∀ body : List Stmt,
    checkBlock defs c w body = checkBlock others c w body
  | [] => rfl
  | s :: rest => by
    rw [checkBlock, checkBlock, checkStmt_of_agree h _ _ s, checkBlock_of_agree h _ _ rest]

theorem checkArms_of_agree (h : defs.Agree others) (c : Context) (w : Walk) : ∀ arms : List Arm,
    checkArms defs c w arms = checkArms others c w arms
  | [] => rfl
  | .mk _ body _ :: rest => by
    rw [checkArms, checkArms, checkStmt_of_agree h _ _ body, checkArms_of_agree h _ _ rest]

end

lemma checkDecl_of_agree (h : defs.Agree others) (globals : Scope) (d : Decl) :
    checkDecl defs globals d = checkDecl others globals d := by
  cases d <;> simp only [checkDecl, h.checkFields_eq, h.resolve_eq, checkAgent, checkFlow,
    checkHandler, checkBlock_of_agree h]

end Analysis

end Workflow
