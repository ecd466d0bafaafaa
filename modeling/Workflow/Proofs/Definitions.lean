import Workflow.Proofs.Blocks
import Workflow.Proofs.Chart
import Workflow.Proofs.Expressions
import Workflow.Proofs.Statements

/-!
Phrases of definitions and of whole sources are sound, with one case for each rule; so all phrases are.

Main statement: reading the derivation of a source gives a program for which the tokens of the source stand, or
an error about an integer that exceeds the limit of its phrase. No derivation is malformed.
-/

namespace Workflow.Form

open Outcome Workflow.Tree

/-! ### Lists of names -/

lemma sound_nameList : Sound .nameList := by
  constructor
  · intro children inner hnames comma hcomma n hn span
    have hwords : words .ident (.node .nameList [.node .nameList children inner, .leaf comma, .leaf n] span) =
        words .ident (.node .nameList children inner) ++ [n.word] := by
      simp [words, tokens, tokensOf, hcomma.out, hn.out]
    have hne : (words .ident (.node .nameList children inner)).map Part.name ≠ [] := by simpa using hnames.1
    rw [Faithful, hwords, List.map_append, List.map_singleton, Part.commas_snoc hne]
    exact ⟨by simp, hnames.2.append (.mark hcomma.out <| .name hn.out .nil)⟩
  · intro n hn span
    have hwords : words .ident (.node .nameList [.leaf n] span) = [n.word] := by
      simp [words, tokens, tokensOf, hn.out]
    rw [Faithful, hwords]
    exact ⟨by simp, .name hn.out .nil⟩

lemma sound_params : Sound .params := by
  constructor
  · intro children inner hparams v hv span
    have hwords : words .var (.node .params [.node .params children inner, .leaf v] span) =
        words .var (.node .params children inner) ++ [v.variableName] := by
      simp [words, tokens, tokensOf, hv.out]
    rw [Faithful, hwords, List.map_append]
    exact WrittenAll.append hparams (.var hv.out .nil)
  · intro v hv span
    have hwords : words .var (.node .params [.leaf v] span) = [v.variableName] := by
      simp [words, tokens, tokensOf, hv.out]
    rw [Faithful, hwords]
    exact .var hv.out .nil

/-! ### Models, schemas, tools and policies -/

lemma sound_importDecl : Sound .importDecl := fun _ _ _ _ _ _ _ _ => made .importDecl

lemma sound_modelProp : Sound .modelProp := fun _ _ _ _ _ _ hl _ _ _ => bind hl fun _ _ => made .modelProp

lemma sound_modelProps : Sound .modelProps :=
  ⟨fun _ _ hps _ _ hp _ => snoc hps hp, fun _ _ hp _ => one hp⟩

lemma sound_modelDef : Sound .modelDef := by
  refine ⟨fun _ _ _ _ _ _ _ _ _ _ _ _ => made .model, ?_⟩
  intro _ _ _ n _ eq _ s _ colon _ stop _ indent _ _ _ hps dedent _ span
  exact bind (united hps (fun _ => .modelProps) fun _ _ => trivial) fun _ _ => made .modelWith

lemma sound_baseType : Sound .baseType :=
  ⟨fun n _ _ => made (.namedType (n := n.word)), fun _ _ _ _ _ _ _ ht _ _ _ => bind ht fun _ _ => made .listType⟩

lemma sound_typeTag : Sound .typeTag :=
  ⟨fun _ _ ht _ => whole ht fun _ => .plainType, fun _ _ ht _ _ _ => bind ht fun _ _ => made .optionalType⟩

lemma sound_field : Sound .field := fun _ _ _ _ _ _ ht _ _ _ => bind ht fun _ _ => made .field

lemma sound_fields : Sound .fields :=
  ⟨fun _ _ hfs _ _ hf _ => snoc hfs hf, fun _ _ hf _ => one hf⟩

lemma sound_schemaDef : Sound .schemaDef := by
  intro _ _ _ n _ colon _ stop _ indent _ _ _ hfs dedent _ span
  exact bind (united hfs (fun _ => .fields) fun _ _ => trivial) fun _ _ => made .schema

lemma sound_toolKind : Sound .toolKind := by
  constructor <;> intro t ht _ span <;> refine ⟨t, span, rfl, ?_⟩ <;> rw [ht]
  exacts [stands .builtin, stands .mcp]

lemma sound_toolDef : Sound .toolDef := by
  intro _ _ _ n _ eq _ _ _ hkind s _ stop _ span
  obtain ⟨kind, inner, heqKind, _⟩ := hkind
  obtain ⟨-, rfl, rfl⟩ := node.inj heqKind
  exact made .tool

lemma sound_backoff : Sound .backoff := by
  refine ⟨?_, ?_, ?_⟩ <;> intro t ht _ span <;> simp only [Faithful, backoff, ht]
  exacts [made .fixed, made .linear, made .exponential]

lemma sound_retryDef : Sound .retryDef := by
  constructor
  · intro _ _ _ n _ eq _ t _ _ _ _ stop _ span
    exact integer countLimit rfl fun _ => made .retry
  · intro _ _ _ n _ eq _ t _ _ _ _ comma _ _ _ hdelay _ _ _ stop _ span
    exact bind hdelay fun _ _ => integer countLimit rfl fun _ => made .retryBackoff

lemma sound_timeUnit : Sound .timeUnit := by
  refine ⟨?_, ?_, ?_, ?_⟩ <;> intro t ht _ span <;> simp only [Faithful, timeUnit, ht]
  exacts [made .seconds, made .second, made .minutes, made .minute]

lemma sound_timeoutDef : Sound .timeoutDef := by
  intro _ _ _ n _ eq _ t _ _ _ hunit stop _ span
  exact integer durationLimit rfl fun _ => bind hunit fun _ _ => made (.timeout (k := ⟨t.digitsValue, t.span⟩))

lemma sound_guardrailDef : Sound .guardrailDef := fun _ _ _ _ _ _ _ _ _ _ _ _ _ _ _ => made .guardrail

/-! ### Prompts -/

lemma sound_promptMod : Sound .promptMod :=
  ⟨fun _ _ _ _ _ _ _ => .ok ⟨stands .expecting, rfl, rfl⟩, fun _ _ _ _ _ _ _ _ _ _ => .ok ⟨stands .usingModel, rfl, rfl⟩⟩

lemma sound_promptMods : Sound .promptMods := by
  constructor
  · intro _ _ hmods _ _ hmod span p
    refine bind (hmods p) fun q ⟨_, hbody, hclause⟩ => keep (hmod q) fun r ⟨_, hbody', hclause'⟩ => ?_
    exact ⟨stands (.promptMods (q := q)), hbody'.trans hbody, hclause'.trans hclause⟩
  · intro _ _ hmod span p
    exact keep (hmod p) fun q ⟨_, hkept⟩ => ⟨stands .promptModsOne, hkept⟩

lemma sound_promptHead : Sound .promptHead := by
  constructor
  · intro _ _ _ n _ span body clause outer
    exact .ok ⟨stands .promptHead, rfl, rfl⟩
  · intro _ _ _ n _ _ _ hmods span body clause outer
    exact keep (hmods _) fun p ⟨_, hkept⟩ => ⟨stands (@Part.Consists.promptHeadWith n.word body clause outer p), hkept⟩

lemma sound_promptBody : Sound .promptBody := ⟨fun _ _ _ => made .promptText, fun _ _ _ => made .promptLongText⟩

lemma sound_escalateOp : Sound .escalateOp := by
  refine ⟨?_, ?_, ?_, fun _ _ _ _ => made .escalateContains⟩ <;> intro t ht span <;>
    simp only [Faithful, escalateOp, ht.out]
  exacts [made .escalateEquals, made .escalateSimilar, made .escalateNotEquals]

lemma sound_escalateClause : Sound .escalateClause :=
  fun _ _ _ _ _ _ _ _ hop _ _ _ => bind hop fun _ _ => made .escalateClause

lemma sound_promptDef : Sound .promptDef := by
  constructor
  · intro _ _ hhead colon _ _ _ hbody stop _ span
    refine bind hbody fun body _ => ?_
    refine bind (hhead body none span) fun p ⟨_, hsame, hplain⟩ => ?_
    subst hsame
    exact made (.prompt hplain)
  · intro _ _ hhead colon _ _ _ hbody stop _ indent _ _ _ hclause last _ dedent _ span
    refine bind hclause fun clause _ => bind hbody fun body _ => ?_
    refine bind (hhead body (some clause) span) fun p ⟨_, hsame, hescalates⟩ => ?_
    subst hsame
    exact made (.promptEscalating hescalates)

/-! ### Agents, flows and handlers -/

lemma sound_agentProp : Sound .agentProp := by
  have hnames {t} (h : Faithful .nameList t) : Stands (.names (words .ident t)) t := ⟨.parts .names h.2, trivial⟩
  refine ⟨?_, ?_, ?_, ?_, ?_, ?_, ?_⟩
  · intro what hwhat _ n _ stop _ span a
    simp only [agentProps.agentProp, hwhat]
    exact made .instruction
  · intro what hwhat _ _ _ h stop _ span a
    have _ := hnames h
    simp only [agentProps.agentProp, hwhat]
    exact made .tools
  · intro what hwhat _ n _ stop _ span a
    simp only [agentProps.agentProp, hwhat]
    exact made .agentRetry
  · intro what hwhat _ n _ stop _ span a
    simp only [agentProps.agentProp, hwhat]
    exact made .agentTimeout
  · intro what hwhat _ n _ stop _ span a
    simp only [agentProps.agentProp, hwhat]
    exact made .description
  · intro what hwhat _ _ _ h stop _ span a
    have _ := hnames h
    simp only [agentProps.agentProp, hwhat]
    exact made .delegate
  · intro what hwhat _ _ _ h stop _ span a
    have _ := hnames h
    simp only [agentProps.agentProp, hwhat]
    exact made .use

lemma sound_agentProps : Sound .agentProps :=
  ⟨fun _ _ hprops _ _ hprop _ a => bind (hprops a) fun b _ => keep (hprop b) fun _ _ => stands (.agentProps (b := b)),
    fun _ _ hprop _ a => keep (hprop a) fun _ _ => stands .agentPropsOne⟩

lemma sound_agentDef : Sound .agentDef := by
  constructor
  · intro _ _ _ n _ colon _ stop _ indent _ _ _ hprops dedent _ span
    exact bind (hprops ⟨some n.word, none, [], none, none, none, none, none, span⟩) fun a _ =>
      made (@Part.Consists.agent n.word a span)
  · intro _ _ _ colon _ stop _ indent _ _ _ hprops dedent _ span
    exact bind (hprops ⟨none, none, [], none, none, none, none, none, span⟩) fun a _ =>
      made (@Part.Consists.startAgent a span)

lemma sound_flowDef : Sound .flowDef := by
  refine ⟨fun _ _ _ _ _ _ _ _ _ hss _ => bind hss fun _ _ => made .flow, ?_⟩
  intro _ _ _ n _ _ _ hparams colon _ _ _ hss span
  have _ : Stands (.params _) _ := ⟨.parts .params hparams, trivial⟩
  exact bind hss fun _ _ => made .flowWith

lemma sound_handlerEvent : Sound .handlerEvent := by
  refine ⟨?_, ?_, ?_, fun _ _ _ _ _ => ?_, fun _ _ _ _ _ => ?_⟩ <;> intro t ht _ span <;>
    simp only [Faithful, handlerEvent, ht]
  exacts [made .onStart, made .onInput, made .onOutput, made .onToolCall, made .onToolResult]

lemma sound_handlerDef : Sound .handlerDef :=
  fun _ _ _ _ _ hevent _ _ hss _ => bind hevent fun _ _ => bind hss fun _ _ => made .handler

/-! ### Sources -/

lemma sound_item : Sound .item := by
  refine ⟨?_, ?_, ?_, ?_, ?_, ?_, ?_, ?_, ?_, ?_, ?_⟩ <;> exact fun _ _ hd _ => only hd

lemma sound_items : Sound .items :=
  ⟨fun _ _ hds _ _ hd _ => snoc hds hd, fun _ _ hd _ => one hd⟩

lemma sound_version : Sound .version := fun _ _ _ _ _ _ _ _ => made .version

lemma sound_unit : Sound .unit := by
  refine ⟨?_, ?_, ?_⟩
  · exact fun _ _ hds _ _ => bind (united hds (fun _ => .decls) fun _ _ => trivial) fun _ _ => made .source
  · intro _ _ hversion _ _ hds span name
    exact bind hversion fun _ _ => bind (united hds (fun _ => .decls) fun _ _ => trivial) fun _ _ => made .versionSource
  · exact fun _ _ hversion _ _ => bind hversion fun _ _ => made .versionOnly

lemma sound (phrase : Nonterminal) : Sound phrase := by
  cases phrase
  exacts [sound_unit, sound_version, sound_items, sound_item, sound_importDecl, sound_modelDef,
    sound_modelProps, sound_modelProp, sound_schemaDef, sound_fields, sound_field, sound_typeTag,
    sound_baseType, sound_toolDef, sound_toolKind, sound_retryDef, sound_backoff, sound_timeoutDef,
    sound_timeUnit, sound_guardrailDef, sound_promptDef, sound_promptHead, sound_promptMods,
    sound_promptMod, sound_promptBody, sound_escalateClause, sound_escalateOp, sound_agentDef,
    sound_agentProps, sound_agentProp, sound_nameList, sound_flowDef, sound_params, sound_handlerDef,
    sound_handlerEvent, sound_block, sound_doBlock, sound_stmts, sound_stmt, sound_simpleStmt,
    sound_assignment, sound_propertyAssignment, sound_propPath, sound_runStmt, sound_invocation,
    sound_modelOverride, sound_args, sound_escalateHandler, sound_escalateAction, sound_parallelBlock,
    sound_loopBlock, sound_forBlock, sound_ifBlock, sound_elseBranch, sound_matchBlock, sound_arms,
    sound_arm, sound_failureBlock, sound_returnStmt, sound_continueStmt, sound_abortStmt, sound_pushStmt,
    sound_logStmt, sound_guardStmt, sound_expr, sound_orExpr, sound_andExpr, sound_notExpr,
    sound_cmpExpr, sound_cmpOp, sound_addExpr, sound_atom, sound_varRef, sound_literal, sound_listExpr,
    sound_elems, sound_mapExpr, sound_entries, sound_entry, sound_mapKey, sound_filterExpr,
    sound_implicitProp]

end Workflow.Form

namespace Workflow

/-! ### Derivations of sources -/

lemma Tree.ofSource_eq_ok (h : ofSource source = .ok tree) :
    ∃ raw tokens, Token.lex source = .ok raw ∧ Token.layout source raw = .ok tokens ∧
      ofTokens source tokens = .ok tree := by
  unfold ofSource at h
  split at h
  · contradiction
  · next raw hraw =>
    split at h
    · contradiction
    · next tokens htokens => exact ⟨raw, tokens, hraw, htokens, h⟩

lemma Form.faithful_ofTokens {tokens : List Token} (h : Tree.ofTokens source tokens = .ok tree) :
    tree.tokens = tokens ∧ Faithful .unit tree := by
  cases tokens with
  | nil =>
    cases h
    exact ⟨rfl, fun name => Outcome.made .empty⟩
  | cons t rest =>
    have hderivation := Chart.parse_sound ((Tree.ofTokens_eq_ok _ (List.cons_ne_nil _ _) _).1 h)
    exact ⟨hderivation.tokens, faithful_of_spells sound tree .unit hderivation.spells⟩

/-- A program that is read from a source is what the tokens of the source stand for. -/
lemma Program.stands_of_ofSource {source name : String} (h : ofSource source name = .ok p) :
    ∃ raw tokens tree, Token.lex source = .ok raw ∧ Token.layout source raw = .ok tokens ∧ tree.tokens = tokens ∧
      Form.Stands (.source p.version p.decls) tree := by
  unfold ofSource at h
  split at h
  · contradiction
  · next tree htree =>
    obtain ⟨raw, tokens, hraw, htokens, hderived⟩ := Tree.ofSource_eq_ok htree
    obtain ⟨hleaves, hunit⟩ := Form.faithful_ofTokens hderived
    refine ⟨raw, tokens, tree, hraw, htokens, hleaves, ?_⟩
    have hyields : Form.Yields tree (fun p : Program => .source p.version p.decls) (ofTree name tree) := hunit name
    split at h
    · contradiction
    · next q hq =>
      cases h
      rw [hq] at hyields
      cases hyields with
      | ok good => exact good

/-- A source has no way to write an empty block. -/
lemma Program.ofSource_full {source name : String} (h : ofSource source name = .ok p) : p.Full := by
  obtain ⟨_, _, _, -, -, -, hstands⟩ := stands_of_ofSource h
  exact hstands.full

lemma Tree.mem_tokensOf : ∀ {trees}, t ∈ trees → token ∈ t.tokens → token ∈ tokensOf trees
  | first :: rest, ht, htoken => by
    rw [tokensOf, List.mem_append]
    rcases List.mem_cons.1 ht with rfl | ht
    · exact .inl htoken
    · exact .inr (mem_tokensOf ht htoken)

def listsSource : String := "agent a:\n tools x, y\nflow f $p $q:\n abort\n"

/-- The names of tools and the parameters that a program lists. -/
def Program.listed (p : Program) : List String :=
  p.decls.flatMap fun d =>
    match d with
    | .agent a => a.tools.map (·.node)
    | .flow f => f.params.map (·.node)
    | _ => []

end Workflow
