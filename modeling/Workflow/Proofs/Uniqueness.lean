import Workflow.Proofs.Linked
import Workflow.Run.Basic

/-!
Names that are taken once. Where analysis finds no error, definitions of one kind have different names, and so
have the fields of a schema. A parameter that comes twice is found too, unless its name is that of a global,
which it may hide.
-/

namespace Workflow

open List Analysis Lower Program

namespace Analysis

variable {defs : Definitions} {globals : Scope}

lemma nodup_of_checkFields : ∀ {fields : List FieldDef} {seen : List String},
    Harmless (checkFields defs seen fields) →
    (fields.map (·.name.node)).Nodup ∧ ∀ name ∈ seen, name ∉ fields.map (·.name.node)
  | [], _, _ => ⟨nodup_nil, fun _ _ => not_mem_nil⟩
  | f :: rest, seen, h => by
    simp only [checkFields, harmless_append] at h
    obtain ⟨⟨hrepeated, -⟩, hrest⟩ := h
    obtain ⟨hnodup, hseen⟩ := nodup_of_checkFields hrest
    have hnew : f.name.node ∉ seen := by
      intro hmem
      rw [if_pos (contains_iff_mem.2 hmem)] at hrepeated
      exact absurd rfl (harmless_singleton.1 hrepeated)
    refine ⟨nodup_cons.2 ⟨hseen _ mem_cons_self, hnodup⟩, fun name hname hmem => ?_⟩
    rcases mem_cons.1 hmem with rfl | hmem
    · exact hnew hname
    · exact hseen name (.tail _ hname) hmem

lemma count_of_checkParams {name : String} (hname : name ∉ globals) :
    ∀ {params scope}, Harmless (checkParams globals scope params).2 →
      (plainNames params).count name ≤ 1 ∧ (name ∈ scope → name ∉ plainNames params)
  | [], _, _ => ⟨Nat.zero_le _, fun _ => not_mem_nil⟩
  | p :: rest, scope, h => by
    obtain ⟨hrepeated, hrest⟩ := harmless_append.1 h
    obtain ⟨hcount, hscope⟩ := count_of_checkParams hname hrest
    rw [Scope.mem_insert] at hscope
    simp only [plainNames, map_cons, count_cons, mem_cons, not_or] at hcount hscope ⊢
    by_cases hp : p.node = name
    · subst hp
      have hnot := hscope (.inl rfl)
      rw [count_eq_zero.2 hnot]
      refine ⟨by simp, fun hmem => ?_⟩
      rw [if_pos (by simp [hmem, hname])] at hrepeated
      exact absurd rfl (harmless_singleton.1 hrepeated)
    · rw [if_neg (by simpa using hp)]
      exact ⟨hcount, fun hmem => ⟨Ne.symm hp, hscope (.inr hmem)⟩⟩

lemma nodup_params (h : Harmless (checkFlow defs globals d))
    (hglobals : ∀ name ∈ globals, (plainNames d.params).count name ≤ 1) : (plainNames d.params).Nodup := by
  refine nodup_iff_count_le_one.2 fun name => ?_
  by_cases hname : name ∈ globals
  · exact hglobals name hname
  · exact (count_of_checkParams hname (harmless_append.1 h).1).1

end Analysis

/-! ### Arguments -/

lemma Bindings.get?_foldl_set {name : String} : ∀ {entries : List (String × Json)} {b : Bindings},
    name ∉ entries.map (·.1) →
    (entries.foldl (fun b (param, arg) => b.set param arg) b).get? name = b.get? name
  | [], _, _ => rfl
  | (param, arg) :: rest, b, h => by
    obtain ⟨hne, hrest⟩ := not_or.1 (mt mem_cons.2 h)
    rw [foldl_cons, get?_foldl_set hrest, Bindings.get?_set, if_neg (Ne.symm hne)]

lemma Bindings.map_get?_foldl_set : ∀ {params : List String} {args : List Json} {b : Bindings},
    params.Nodup → params.length = args.length →
    params.map ((params.zip args).foldl (fun b (param, arg) => b.set param arg) b).get? = args.map some
  | [], [], _, _, _ => rfl
  | param :: params, arg :: args, b, hnodup, hlength => by
    obtain ⟨hnot, hnodup⟩ := nodup_cons.1 hnodup
    have hlength : params.length = args.length := Nat.succ.inj hlength
    have hnames : param ∉ (params.zip args).map (·.1) := by rwa [map_fst_zip (Nat.le_of_eq hlength)]
    rw [zip_cons_cons, foldl_cons, map_cons, get?_foldl_set hnames, Bindings.get?_set,
      if_pos rfl, map_get?_foldl_set hnodup hlength, map_cons]

/-- Where analysis finds no error, definitions of one kind have different names, the fields of each schema too,
and the parameters of each flow that does not list a global twice. A call of such a flow reads each argument
under its own parameter. -/
theorem names_unique_of_valid {root : Program} {imports : List Program}
    (hvalid : (analyze root imports).hasErrors = false) :
    ((decls (root :: imports)).filterMap Decl.key?).Nodup ∧
    (∀ d : SchemaDef, .schema d ∈ decls (root :: imports) → (d.fields.map (·.name.node)).Nodup) ∧
    ∀ d : FlowDef, .flow d ∈ decls (root :: imports) →
      (∀ name ∈ globals (root :: imports), (plainNames d.params).count name ≤ 1) →
      (plainNames d.params).Nodup ∧ ∀ (s : Scene) (f : FlowUnit) (args : List Json), f.params = plainNames d.params →
          f.params.length = args.length → f.params.map (s.flowFrame f args).bindings.get? = args.map some := by
  have hclean := clean_of_diagnostics hvalid
  refine ⟨?_, fun d hd => ?_, fun d hd hglobals => ?_⟩
  · rw [keys_decls]
    exact hclean.keys_listed
  · exact (nodup_of_checkFields (CompiledUnit.checked_of_clean hclean hd)).1
  · have hnodup := nodup_params (CompiledUnit.checked_of_clean hclean hd) hglobals
    exact ⟨hnodup, fun s f args hparams hlength => Bindings.map_get?_foldl_set (hparams ▸ hnodup) hlength⟩

/-! ### A parameter that hides a global -/

def Decl.takes (params : List String) : Decl → Bool
  | flow d => plainNames d.params = params
  | _ => false

lemma Decl.exists_of_takes {ds : List Decl} (h : ds.any (takes params) = true) :
    ∃ d : FlowDef, .flow d ∈ ds ∧ plainNames d.params = params := by
  obtain ⟨d, hd, h⟩ := any_eq_true.1 h
  cases d with
  | flow d => exact ⟨d, hd, of_decide_eq_true h⟩
  | _ => cases h

def Decl.lists (fields : List String) : Decl → Bool
  | schema d => d.fields.map (·.name.node) = fields
  | _ => false

lemma Decl.exists_of_lists {ds : List Decl} (h : ds.any (lists fields) = true) :
    ∃ d : SchemaDef, .schema d ∈ ds ∧ d.fields.map (·.name.node) = fields := by
  obtain ⟨d, hd, h⟩ := any_eq_true.1 h
  cases d with
  | schema d => exact ⟨d, hd, of_decide_eq_true h⟩
  | _ => cases h

/-- A flow with a parameter that hides the global of an imported file. -/
def hidingSource : String := "import \"lib\"\nflow f $x $n:\n return $n\n"

/-- A start handler, and a schema with two fields. -/
def hiddenSource : String := "on start do\n $n = 1\nend\nschema s:\n a: int\n b: int\n"

theorem names_unique_of_valid_hiding : ∃ root loaded, ofSource hidingSource "main" = .ok root ∧
    root.load [("lib", hiddenSource)] = .ok loaded ∧
    (analyze root loaded.imports).hasErrors = false ∧
    globals (root :: loaded.imports) = ["n"] ∧
    (∃ d : SchemaDef, .schema d ∈ decls (root :: loaded.imports) ∧ d.fields.map (·.name.node) = ["a", "b"]) ∧
    ∃ d : FlowDef, .flow d ∈ decls (root :: loaded.imports) ∧ plainNames d.params = ["x", "n"] ∧
      ∀ (s : Scene) (f : FlowUnit) (v w : Json), f.params = plainNames d.params →
        f.params.map (s.flowFrame f [v, w]).bindings.get? = [some v, some w] := by
  obtain ⟨root, loaded, compiled, hroot, hloaded, hcompiled, h⟩ := exists_of_compilesTo
    (show compilesTo [("lib", hiddenSource)] hidingSource "main" (fun root loaded _ =>
      !(analyze root loaded.imports).hasErrors
      && decide (globals (root :: loaded.imports) = ["n"])
      && (decls (root :: loaded.imports)).any (Decl.lists ["a", "b"])
      && (decls (root :: loaded.imports)).any (Decl.takes ["x", "n"])) = true by decide +kernel)
  simp only [Bool.and_eq_true, Bool.not_eq_true', decide_eq_true_eq] at h
  obtain ⟨⟨⟨hvalid, hglobals⟩, hlists⟩, htakes⟩ := h
  obtain ⟨d, hd, hparams⟩ := Decl.exists_of_takes htakes
  obtain ⟨-, -, hflows⟩ := names_unique_of_valid hvalid
  have hcount : ∀ name ∈ globals (root :: loaded.imports), (plainNames d.params).count name ≤ 1 := by
    rw [hglobals, hparams]
    decide
  obtain ⟨-, hreads⟩ := hflows d hd hcount
  refine ⟨root, loaded, hroot, hloaded, hvalid, hglobals, Decl.exists_of_lists hlists, d, hd, hparams,
    fun s f v w hf => ?_⟩
  exact hreads s f [v, w] hf (by rw [hf, hparams]; rfl)

def sharingSource : String := "on start do\n  $x = 1\nend\nflow f $x $x:\n  return $x\n"

/-- Two parameters with the name of a global pass, and the first argument cannot be read. -/
theorem parameters_share_global : ∃ root d, ofSource sharingSource "main.wv" = .ok root ∧
    (analyze root []).hasErrors = false ∧ .flow d ∈ root.decls ∧ plainNames d.params = ["x", "x"] ∧
    ∀ (s : Scene) (f : FlowUnit) (v w : Json), f.params = plainNames d.params →
      f.params.map (s.flowFrame f [v, w]).bindings.get? = [some w, some w] := by
  have hrun : (ofSource sharingSource "main.wv").toOption.any (fun root =>
      !(analyze root []).hasErrors && root.decls.any (Decl.takes ["x", "x"])) = true := by
    decide +kernel
  obtain ⟨root, hroot, hrun⟩ := Except.of_any hrun
  rw [Bool.and_eq_true, Bool.not_eq_true'] at hrun
  obtain ⟨d, hd, hparams⟩ := Decl.exists_of_takes hrun.2
  refine ⟨root, d, hroot, hrun.1, hd, hparams, fun s f v w hf => ?_⟩
  simp [Scene.flowFrame, hf, hparams, Bindings.get?_set]

end Workflow
