import Workflow.Command.Basic
import Workflow.Proofs.Sessions

/-!
Compilation and validation agree. A compilation ends with a unit, with the one diagnostic of a text that does
not parse, or with all that analysis has found; what validation tells decides which of the three it is. The
commands that check and that print a listing therefore succeed on the same files.
-/

namespace Workflow

open CommandResult Program Command

/-! ### Errors of the stages -/

lemma Except.foldlM_fails {α β ε : Type} {Q : ε → Prop} {f : β → α → Except ε β}
    (step : ∀ b a e, f b a = .error e → Q e) : ∀ (as : List α) {b e}, as.foldlM f b = .error e → Q e
  | [], _, _, h => nomatch h
  | a :: as, b, e, h => by
    rw [List.foldlM_cons] at h
    cases hb : f b a with
    | ok c =>
      rw [hb] at h
      exact Except.foldlM_fails step as h
    | error e' =>
      rw [hb] at h
      cases h
      exact step b a e hb

def CompileError.IsSyntactic (e : CompileError) : Prop := ∃ d, e = .syntactic d ∧ d.isError = true

lemma ParseError.toDiagnostic_isError (e : ParseError) (file source : String) :
    (e.toDiagnostic file source).isError = true := by
  cases e <;> rfl

namespace Program

lemma ofSource_eq_error {source name : String} (h : ofSource source name = .error e) : e.IsSyntactic := by
  unfold ofSource at h
  split at h
  · cases h
    exact ⟨_, rfl, ParseError.toDiagnostic_isError _ _ _⟩
  · split at h
    · cases h
      exact ⟨_, rfl, rfl⟩
    · cases h

lemma ofTree_rename (name other : String) (t : Tree) :
    ofTree other t = (ofTree name t).map fun p => { p with name := other } := by
  unfold ofTree
  split
  · rfl
  · next children span _ => cases Form.version (.node .version children span) <;> rfl
  · next items _ _ => cases Form.decls items <;> rfl
  · next version items _ =>
    cases Form.version version with
    | error e => rfl
    | ok v => cases Form.decls items <;> rfl
  · cases t <;> rfl

lemma ofSource_rename {source name : String} (h : ofSource source name = .ok p) (other : String) :
    ofSource source other = .ok { p with name := other } := by
  unfold ofSource at h ⊢
  split at h
  · cases h
  · next tree htree =>
    split at h
    · cases h
    · next q hq =>
      cases h
      rw [ofTree_rename name, hq]
      rfl

end Program

lemma Loaded.visit_eq_error (files : Files) : ∀ (n : Nat) (chain : List String) (l : Loaded)
    (p : Program) {e}, visit files n chain l p = .error e →
    ∃ name ∉ chain, ∃ text, files.get? name = some text ∧ ofSource text name = .error e
  | 0, _, _, _, _, h => nomatch h
  | n + 1, chain, l, p, e, h => by
    refine Except.foldlM_fails (Q := fun e => ∃ name ∉ chain, ∃ text, files.get? name = some text ∧
      ofSource text name = .error e) (fun l path e h => ?_) _ h
    cases enters_of_eq h with
    | malformed hnew htext herror =>
      exact ⟨_, fun hmem => hnew (List.contains_iff_mem.2 hmem), _, htext, herror⟩
    | read _ _ _ _ h =>
      obtain ⟨name, hname, hfile⟩ := visit_eq_error files n _ _ _ h
      exact ⟨name, fun hmem => hname (List.mem_append_left _ hmem), hfile⟩

/-! ### Compilation and validation -/

@[simp] lemma mem_orderDiagnostics : d ∈ orderDiagnostics root ds ↔ d ∈ ds := by
  simp only [orderDiagnostics, Diagnostic.sort, List.mem_append, List.mem_filter, List.mem_mergeSort, decide_eq_true_eq]
  tauto

/-- How a compilation ends, and what validation says then. -/
inductive Verdict (ds : List Diagnostic) : Except CompileError Compiled → Prop where
  | compiled (c : Compiled) (harmless : ∀ d ∈ ds, d.isError = false) : Verdict ds (.ok c)
  | syntactic (d : Diagnostic) (only : ds = [d]) (severe : d.isError = true) : Verdict ds (.error (.syntactic d))
  | semantic (severe : ∃ d ∈ ds, d.isError = true) : Verdict ds (.error (.semantic ds))

lemma validate_eq {source name : String} (hroot : ofSource source name = .ok root)
    (hloaded : root.load files = .ok loaded) : validate files source name = orderDiagnostics name
      (loaded.diagnostics ++ (Analysis.analyze root loaded.imports).diagnostics) := by
  rw [validate, hroot]
  dsimp only
  rw [hloaded]

lemma compile_verdict (config : CompilerConfig) (files : Files) (source name : String) :
    Verdict (validate files source name) (compile config files source name) := by
  cases hroot : ofSource source name with
  | error e =>
    obtain ⟨d, rfl, hd⟩ := ofSource_eq_error hroot
    rw [validate, compile, hroot]
    exact .syntactic d rfl hd
  | ok root =>
    cases hloaded : root.load files with
    | error e =>
      obtain ⟨_, -, _, -, herror⟩ := Loaded.visit_eq_error files _ _ _ root hloaded
      obtain ⟨d, rfl, hd⟩ := ofSource_eq_error herror
      rw [validate, compile, hroot]
      simp only [bind, Except.bind, hloaded]
      exact .syntactic d rfl hd
    | ok loaded =>
      have hvalidate := validate_eq hroot hloaded
      cases hclean : (loaded.diagnostics ++ (Analysis.analyze root loaded.imports).diagnostics).any
          Diagnostic.isError with
      | true =>
        rw [compile_eq hroot hloaded, hclean, if_pos rfl, ← hvalidate]
        obtain ⟨d, hd, hsevere⟩ := List.any_eq_true.1 hclean
        exact .semantic ⟨d, hvalidate ▸ mem_orderDiagnostics.2 hd, hsevere⟩
      | false =>
        obtain ⟨-, u, -, hu⟩ := compile_of_clean hroot hloaded hclean config
        rw [hu]
        refine .compiled _ fun d hd => ?_
        rw [hvalidate, mem_orderDiagnostics] at hd
        exact Bool.eq_false_iff.2 (List.any_eq_false.1 hclean d hd)

lemma Verdict.isOk_iff (h : Verdict ds x) : (∃ c, x = .ok c) ↔ ∀ d ∈ ds, d.isError = false := by
  cases h with
  | compiled c harmless => exact ⟨fun _ => harmless, fun _ => ⟨c, rfl⟩⟩
  | syntactic d only severe =>
    subst only
    simp [severe]
  | semantic severe =>
    obtain ⟨d, hd, hsevere⟩ := severe
    refine ⟨fun ⟨_, h⟩ => (nomatch h), fun h => ?_⟩
    rw [h d hd] at hsevere
    cases hsevere

/-! ### Commands -/

def CommandResult.succeeds (r : CommandResult) : Bool := r.code = 0

namespace Command

lemma runCheck_code {source name : String} (json : Bool) :
    (runCheck files source name json).code = 0 ↔ ∀ d ∈ validate files source name, d.isError = false := by
  have hcount : 0 < ((validate files source name).filter Diagnostic.isError).length ↔
      ¬ ∀ d ∈ validate files source name, d.isError = false := by
    simp [List.length_pos_iff_exists_mem]
  unfold runCheck
  dsimp only
  split
  · next h => simpa using hcount.1 h
  · next h =>
    have hharmless := not_not.1 (mt hcount.2 h)
    refine iff_of_true ?_ hharmless
    split
    · rfl
    · obtain ⟨c, hc⟩ := (compile_verdict {} files source name).isOk_iff.2 hharmless
      obtain ⟨root, -, hroot, -⟩ := exists_of_compile hc
      have hstats : statsOfSource source = .ok { root with name := "<stats>" }.stats := by
        rw [statsOfSource, ofSource_rename hroot]
        rfl
      rw [hstats]

lemma runDump_verdict (config : CompilerConfig) (files : Files) (source name : String) (strip : Bool) :
    match runDump config files source name strip with
    | .ok _ => ∀ d ∈ validate files source name, d.isError = false
    | .error r => r.code = 2 ∧ ¬ ∀ d ∈ validate files source name, d.isError = false := by
  have hok := (compile_verdict config files source name).isOk_iff
  unfold runDump
  cases hcompile : compile config files source name with
  | ok c => exact hok.1 ⟨c, hcompile⟩
  | error e =>
    refine ⟨rfl, fun hharmless => ?_⟩
    obtain ⟨c, hc⟩ := hok.2 hharmless
    rw [hc] at hcompile
    cases hcompile

lemma succeeds_check_eq_dump {m : Type → Type} [Monad m] [LawfulMonad m] (fs : FileAccess m)
    (env : Table String) (file : String) (json strip : Bool) :
    CommandResult.succeeds <$> (check file json).run fs env =
      CommandResult.succeeds <$> (dump file strip none).run fs env := by
  unfold run
  simp only [map_bind, Command.file]
  congr 1
  funext source?
  cases source? with
  | none => rfl
  | some source =>
    simp only [map_bind]
    congr 1
    funext files
    have hcheck := @runCheck_code files source file json
    have hdump := runDump_verdict (.ofEnvironment env) files source file strip
    simp only [map_pure]
    cases hrun : runDump (.ofEnvironment env) files source file strip with
    | ok text =>
      rw [hrun] at hdump
      simp [CommandResult.succeeds, hcheck.2 hdump]
    | error r =>
      rw [hrun] at hdump
      simp [CommandResult.succeeds, hdump.1, mt hcheck.1 hdump.2]

end Command

/-- A session that keeps nothing compiles exactly the sources in which validation finds no error, and else gives
the diagnostics of validation. Checking and printing a listing end with code 0 together. -/
theorem compile_agrees_with_validate {session : Session} (hempty : session.entries = []) (files : Files)
    (source name : String) :
    ((∃ cached, (session.compile files source name).2 = .ok cached) ↔
      ∀ d ∈ validate files source name, d.isError = false) ∧
    (∀ ds, (session.compile files source name).2 = .error (.semantic ds) → ds = validate files source name) ∧
    (∀ d, (session.compile files source name).2 = .error (.syntactic d) → validate files source name = [d]) ∧
    ∀ {m : Type → Type} [Monad m] [LawfulMonad m] (fs : FileAccess m) (env : Table String)
      (file : String) (json strip : Bool),
      succeeds <$> (check file json).run fs env = succeeds <$> (dump file strip none).run fs env := by
  have hcompile := Session.compile_of_empty hempty files source name
  have hverdict := compile_verdict session.config files source name
  rw [← hcompile] at hverdict
  refine ⟨?_, fun ds h => ?_, fun d h => ?_, succeeds_check_eq_dump⟩
  · rw [← hverdict.isOk_iff]
    cases (session.compile files source name).2 <;> simp [Except.map]
  · rw [h] at hverdict
    cases hverdict
    rfl
  · rw [h] at hverdict
    cases hverdict
    assumption

theorem compile_agrees_with_validate_sample : ({} : Session).entries = [] ∧
    (∀ d ∈ validate [] sampleSource "main", d.isError = false) ∧
    (∃ cached, (Session.compile {} [] sampleSource "main").2 = .ok cached) ∧
    succeeds <$> (check "main" true).run Disk.access [] =
      succeeds <$> (dump "main" false none).run Disk.access [] := by
  obtain ⟨root, loaded, compiled, f, h⟩ := exists_sample
  have hvalid : ∀ d ∈ validate [] sampleSource "main", d.isError = false := by
    rw [validate_eq h.parses h.loads]
    intro d hd
    have hclean := noErrors_of_compile h.parses h.loads h.compiles
    exact Bool.eq_false_iff.2 (List.any_eq_false.1 hclean d (mem_orderDiagnostics.1 hd))
  obtain ⟨hcompiles, -, -, hcommands⟩ :=
    @compile_agrees_with_validate {} rfl [] sampleSource "main"
  exact ⟨rfl, hvalid, hcompiles.2 hvalid, hcommands Disk.access [] "main" true false⟩

end Workflow
