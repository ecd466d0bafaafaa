import Workflow.Proofs.Reading

/-!
Phrases of expressions are sound. For each phrase there is one case for each of its rules, in the order in
which they stand: the children come to parts, and the parts make up an expression.
-/

namespace Workflow.Form

open Outcome Workflow.Tree

lemma sound_literal : Sound .literal := by
  refine ⟨?_, ?_, ?_, ?_, ?_, ?_, ?_, ?_, ?_⟩
  · intro t ht span
    simp only [Faithful, literal, ht.out]
    exact made (.string (s := t.quoted))
  · intro t ht span
    simp only [Faithful, literal, ht.out]
    exact made (.longString (s := t.quoted))
  · intro t ht span
    simp only [Faithful, literal, ht.out]
    exact integer literalLimit rfl fun _ => made (.int (n := ⟨t.digitsValue, t.span⟩))
  · intro t ht span
    simp only [Faithful, literal, ht.out]
    exact made .float
  · intro t ht _ span
    simp only [Faithful, literal, ht]
    exact made .true
  · intro t ht _ span
    simp only [Faithful, literal, ht]
    exact made .false
  · intro t ht _ span
    simp only [Faithful, literal, ht]
    exact made .null
  · intro minus _ t ht span
    simp only [Faithful, literal, ht.out]
    exact integer literalLimit rfl fun _ => made (.negative (n := ⟨t.digitsValue, t.span⟩))
  · intro minus _ t ht span
    simp only [Faithful, literal, ht.out]
    exact made .negativeFloat

lemma sound_cmpOp : Sound .cmpOp := by
  refine ⟨?_, ?_, ?_, ?_, ?_, ?_, ?_, fun _ _ _ _ => made .contains⟩ <;> intro t ht span <;>
    simp only [Faithful, comparison, ht.out]
  exacts [made .eq, made .notEq, made .lt, made .ltEq, made .gt, made .gtEq, made .similar]

lemma sound_propPath : Sound .propPath := by
  constructor
  · intro children inner hpath dot hdot t ht span
    have hwords : words .ident (.node .propPath [.node .propPath children inner, .leaf dot, .leaf t] span) =
        words .ident (.node .propPath children inner) ++ [t.word] := by
      simp [words, tokens, tokensOf, hdot.out, ht.out]
    rw [Faithful, hwords, List.flatMap_append]
    exact WrittenAll.append hpath (.mark hdot.out <| .name ht.out .nil)
  · intro dot hdot t ht span
    have hwords : words .ident (.node .propPath [.leaf dot, .leaf t] span) = [t.word] := by
      simp [words, tokens, tokensOf, hdot.out, ht.out]
    rw [Faithful, hwords]
    exact .mark hdot.out <| .name ht.out .nil

lemma sound_implicitProp : Sound .implicitProp := by
  intro children inner hpath span
  have htokens : (node .implicitProp [.node .propPath children inner] span).tokens =
      (node .propPath children inner).tokens := by simp [tokens, tokensOf]
  rw [Faithful, words, htokens]
  exact hpath

lemma sound_expr : Sound .expr := fun _ _ he _ => only he

lemma sound_orExpr : Sound .orExpr :=
  ⟨fun _ _ hl _ _ _ _ _ hr _ => bind hl fun _ _ => bind hr fun _ _ => made .or,
    fun _ _ he _ => whole he fun _ => .tighter⟩

lemma sound_andExpr : Sound .andExpr :=
  ⟨fun _ _ hl _ _ _ _ _ hr _ => bind hl fun _ _ => bind hr fun _ _ => made .and,
    fun _ _ he _ => whole he fun _ => .tighter⟩

lemma sound_notExpr : Sound .notExpr :=
  ⟨fun _ _ _ _ _ he _ => bind he fun _ _ => made .not, fun _ _ he _ => whole he fun _ => .tighter⟩

lemma sound_cmpExpr : Sound .cmpExpr :=
  ⟨fun _ _ hl _ _ hop _ _ hr _ => bind hop fun _ _ => bind hl fun _ _ => bind hr fun _ _ => made .compare,
    fun _ _ he _ => whole he fun _ => .tighter⟩

lemma sound_addExpr : Sound .addExpr := by
  refine ⟨?_, ?_, fun _ _ he _ => whole he fun _ => .tighter⟩
  · intro _ _ hl op hop _ _ hr span
    refine bind hl fun l _ => bind hr fun r _ => ?_
    rw [hop.out]
    exact made .add
  · intro _ _ hl op hop _ _ hr span
    refine bind hl fun l _ => bind hr fun r _ => ?_
    rw [hop.out]
    exact made .sub

lemma sound_atom : Sound .atom :=
  ⟨fun _ _ hl _ => bind hl fun _ _ => made .constant, fun _ _ he _ => only he, fun _ _ he _ => only he,
    fun _ _ he _ => only he, fun _ _ he _ => only he, fun _ _ _ _ he _ _ _ => keep he fun _ _ => stands .group⟩

lemma sound_varRef : Sound .varRef := by
  constructor
  · intro v _ _ _ hpath span
    have _ : Stands (.path _) _ := ⟨.parts .path hpath, trivial⟩
    exact made .property
  · intro v _ span
    exact made (.variable_ (v := v.variableName))

lemma sound_elems : Sound .elems :=
  ⟨fun _ _ hes _ hcomma _ _ he _ => snocComma hes hcomma he, fun _ _ he _ => oneComma he⟩

lemma sound_listExpr : Sound .listExpr :=
  ⟨fun _ _ _ _ _ => made .list, fun _ _ _ _ hes _ _ _ => bind (united hes (fun _ => .exprs) fun _ _ => trivial) fun _ _ => made .list,
    fun _ _ _ _ hes _ _ _ _ _ => bind (united hes (fun _ => .exprs) fun _ _ => trivial) fun _ _ => made .listComma⟩

lemma sound_mapKey : Sound .mapKey := by
  constructor <;> intro t ht span <;> simp only [Faithful, key, ht.out, reduceIte, reduceCtorEq]
  exacts [made .keyName, made .keyText]

lemma sound_entry : Sound .entry :=
  fun _ _ hkey _ _ _ _ he _ => bind hkey fun _ _ => bind he fun _ _ => made .entry

lemma sound_entries : Sound .entries :=
  ⟨fun _ _ hes _ hcomma _ _ he _ => snocComma hes hcomma he, fun _ _ he _ => oneComma he⟩

lemma sound_mapExpr : Sound .mapExpr :=
  ⟨fun _ _ _ _ _ => made .map, fun _ _ _ _ hes _ _ _ => bind (united hes (fun _ => .entries) fun _ _ => trivial) fun _ _ => made .map,
    fun _ _ _ _ hes _ _ _ _ _ => bind (united hes (fun _ => .entries) fun _ _ => trivial) fun _ _ => made .mapComma⟩

lemma sound_filterExpr : Sound .filterExpr := by
  intro _ _ _ _ _ hlist _ _ _ _ _ hpath _ _ hop _ _ hvalue span
  have _ : Stands (.path _) _ := ⟨.parts .path hpath, trivial⟩
  exact bind hlist fun _ _ => bind hop fun _ _ => bind hvalue fun _ _ => made .filter

end Workflow.Form
