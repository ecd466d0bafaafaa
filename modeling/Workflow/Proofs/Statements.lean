import Workflow.Proofs.Reading

/-!
Phrases of calls, statements and blocks are sound, again with one case for each rule.
-/

namespace Workflow.Form

open Outcome

/-! ### Calls -/

lemma sound_args : Sound .args :=
  ⟨fun _ _ hes _ hcomma _ _ he _ => snocComma hes hcomma he, fun _ _ he _ => oneComma he⟩

lemma sound_modelOverride : Sound .modelOverride := fun _ _ _ _ _ _ _ _ _ => made .override

lemma sound_invocation : Sound .invocation := by
  -- the second word says what is called
  refine ⟨?_, ?_, ?_, ?_, ?_, ?_, ?_, ?_⟩ <;> intro _ _ _ what hwhat _ n _ <;>
    simp only [Demands, Faithful, invocation, hwhat]
  · exact fun _ => made .agentCall
  · exact fun _ _ _ _ _ hargs _ => bind (united hargs (fun _ => .exprs) fun _ _ => trivial) fun _ _ => made .agentCallWith
  · exact fun _ => made .promptCall
  · exact fun _ _ _ _ _ hargs _ => bind (united hargs (fun _ => .exprs) fun _ _ => trivial) fun _ _ => made .promptCallWith
  · exact fun _ _ hmodel _ => bind hmodel fun _ _ => made .promptCallOver
  · intro _ _ _ _ _ hargs _ _ hmodel span
    exact bind (united hargs (fun _ => .exprs) fun _ _ => trivial) fun _ _ => bind hmodel fun _ _ => made .promptCallWithOver
  · exact fun _ => made .flowCall
  · exact fun _ _ _ _ _ hargs _ => bind (united hargs (fun _ => .exprs) fun _ _ => trivial) fun _ _ => made .flowCallWith

lemma sound_escalateAction : Sound .escalateAction := by
  refine ⟨fun _ _ _ _ _ he _ _ _ _ => bind he fun _ _ => made .escalateReturn, ?_, ?_⟩ <;>
    intro t ht _ span on escalate outer <;> simp only [escalateHandler, ht]
  exacts [made .escalateContinue, made .escalateAbort]

lemma sound_escalateHandler : Sound .escalateHandler :=
  fun on _ _ escalate _ _ _ _ haction span => keep (haction on escalate span) fun _ _ => stands .escalateHandler

/-! ### Statements on one line -/

lemma sound_assignment : Sound .assignment := fun _ _ _ _ _ _ he _ _ _ => bind he fun _ _ => made .assign

lemma sound_propertyAssignment : Sound .propertyAssignment := by
  intro v _ _ _ hpath eq _ _ _ he stop _ span
  have _ : Stands (.path _) _ := ⟨.parts .path hpath, trivial⟩
  exact bind he fun _ _ => made .setPath

lemma sound_runStmt : Sound .runStmt := by
  refine ⟨?_, ?_, ?_, ?_⟩
  · exact fun _ _ hcall _ _ _ => bind hcall fun _ _ => made .run
  · exact fun _ _ hcall _ _ haction _ _ _ => bind hcall fun _ _ => bind haction fun _ _ => made .runOn
  · exact fun _ _ _ _ _ _ hcall _ _ _ => bind hcall fun _ _ => made .runInto
  · exact fun _ _ _ _ _ _ hcall _ _ haction _ _ _ => bind hcall fun _ _ => bind haction fun _ _ => made .runIntoOn

lemma sound_returnStmt : Sound .returnStmt :=
  ⟨fun _ _ _ _ _ he _ _ _ => bind he fun _ _ => made .retValue, fun _ _ _ _ _ _ => made .ret⟩

lemma sound_continueStmt : Sound .continueStmt := fun _ _ _ _ _ _ => made .continue_

lemma sound_abortStmt : Sound .abortStmt :=
  ⟨fun _ _ _ _ _ _ => made .abort, fun _ _ _ _ _ he _ _ _ => bind he fun _ _ => made .abortWith⟩

lemma sound_pushStmt : Sound .pushStmt := fun _ _ _ _ _ he _ _ _ _ _ _ _ _ => bind he fun _ _ => made .push

lemma sound_logStmt : Sound .logStmt := fun _ _ _ _ _ he _ _ _ => bind he fun _ _ => made .log

lemma sound_simpleStmt : Sound .simpleStmt := by
  refine ⟨?_, ?_, ?_, ?_, ?_, ?_, ?_, ?_⟩ <;> exact fun _ _ hs _ => only hs

/-! ### Blocks -/

lemma sound_stmts : Sound .stmts :=
  ⟨fun _ _ hss _ _ hs _ => snoc hss hs, fun _ _ hs _ => one hs⟩

lemma sound_block : Sound .block :=
  fun _ _ _ _ _ _ hss _ _ _ => keep (united hss (fun _ => .stmts) fun _ => id) fun _ _ => stands .block

lemma sound_doBlock : Sound .doBlock :=
  fun _ _ _ _ _ _ _ _ _ hss _ _ _ _ _ _ _ _ => keep (united hss (fun _ => .stmts) fun _ => id) fun _ _ => stands .doBlock

lemma sound_elseBranch : Sound .elseBranch :=
  fun _ _ _ _ _ _ _ _ _ hss _ _ _ => keep (united hss (fun _ => .stmts) fun _ => id) fun _ _ => stands .elseBranch

lemma sound_parallelBlock : Sound .parallelBlock := fun _ _ _ _ _ hss _ => bind hss fun _ _ => made .parallel

lemma sound_loopBlock : Sound .loopBlock := by
  refine ⟨fun _ _ _ _ _ hss _ => bind hss fun _ _ => made .loop, ?_⟩
  intro _ _ _ _ _ _ t _ _ _ hss span
  exact integer countLimit rfl fun _ => bind hss fun _ _ => made .loopMax

lemma sound_forBlock : Sound .forBlock :=
  fun _ _ _ _ _ _ _ _ _ _ he _ _ hss _ => bind he fun _ _ => bind hss fun _ _ => made .forEach

lemma sound_ifBlock : Sound .ifBlock := by
  constructor
  · intro _ _ _ _ _ he _ _ _ _ _ _ _ _ _ hss _ _ _ _ _ _ _ span
    exact bind he fun _ _ => bind (united hss (fun _ => .stmts) fun _ => id) fun _ _ => made .branch
  · intro _ _ _ _ _ he _ _ _ _ _ _ _ _ _ hss _ _ _ _ helse _ _ _ _ _ span
    exact bind he fun _ _ => bind (united hss (fun _ => .stmts) fun _ => id) fun _ _ => bind helse fun _ _ => made .branchElse

lemma sound_arm : Sound .arm :=
  ⟨fun _ _ _ _ _ hl _ _ _ _ hs _ => bind hl fun _ _ => bind hs fun _ _ => made .arm,
    fun _ _ _ _ _ _ _ hs _ => bind hs fun _ _ => made .armElse⟩

lemma sound_arms : Sound .arms :=
  ⟨fun _ _ has _ _ ha _ => snoc has ha, fun _ _ ha _ => one ha⟩

lemma sound_matchBlock : Sound .matchBlock := by
  intro _ _ _ _ _ he _ _ _ _ _ _ _ _ _ has _ _ _ _ _ _ _ span
  exact bind he fun _ _ => bind (united has (fun _ => .arms) fun _ => id) fun _ _ => made .select

lemma sound_failureBlock : Sound .failureBlock :=
  fun _ _ _ _ _ _ _ _ hss _ => bind hss fun _ _ => made .failure

lemma sound_guardStmt : Sound .guardStmt := by
  refine ⟨fun _ _ _ _ _ _ _ _ => made .mask, ?_, ?_, fun _ _ _ _ _ _ _ _ _ _ _ _ _ _ _ _ => made .retryWith⟩ <;>
    intro verb hverb _ _ _ _ n _ stop _ span <;> change Yields _ .stmt (guardStmt _) <;> simp only [guardStmt, hverb]
  exacts [made .blockIf, made .warnIf]

lemma sound_stmt : Sound .stmt := by
  refine ⟨fun _ _ hs _ => whole hs fun _ => .simple, ?_, ?_, ?_, ?_, ?_, ?_, ?_⟩ <;>
    exact fun _ _ hs _ => only hs

end Workflow.Form
