import Workflow.Proofs.ImportGraph

/-!
Paths that mean the same file. A single dot in a path stays where it is, and loading compares names as they are
written: an import that comes back to a file of the chain under a new spelling is not reported, and the file is
read again. Where all names that loading meets mean different files this does not happen. That is so if
no import is written with a dot.
-/

namespace Workflow

open List Workflow.Path

namespace Path

variable {parts : List (List Char)} {path dir : List Char}

/-- Two paths mean the same file if they differ in single dots only. -/
def SameFile (a b : String) : Prop :=
  (split a.toList).filter (· ≠ ['.']) = (split b.toList).filter (· ≠ ['.'])

instance (a b : String) : Decidable (SameFile a b) := inferInstanceAs (Decidable (_ = _))

def Dotless (path : String) : Prop := ['.'] ∉ split path.toList

instance (path : String) : Decidable (Dotless path) := inferInstanceAs (Decidable (¬ _))

/-! ### Parts of a path -/

lemma split_ne_nil (cs : List Char) : split cs ≠ [] := by
  unfold split
  split
  · simp
  · simp
  · split <;> simp

lemma split_slash (cs : List Char) : split ('/' :: cs) = [] :: split cs := rfl

lemma split_cons (hc : c ≠ '/') (cs : List Char) : ∃ part parts,
    split cs = part :: parts ∧ split (c :: cs) = (c :: part) :: parts := by
  obtain ⟨part, parts, heq⟩ := exists_cons_of_ne_nil (split_ne_nil cs)
  refine ⟨part, parts, heq, ?_⟩
  rw [split.eq_3 c cs (fun h => hc h), heq]

lemma split_append_slash (b : List Char) : ∀ a : List Char, split (a ++ '/' :: b) = split a ++ split b
  | [] => rfl
  | c :: a => by
    have ih := split_append_slash b a
    by_cases hc : c = '/'
    · rw [hc, cons_append, split_slash, ih, split_slash, cons_append]
    · obtain ⟨part, parts, heq, hcons⟩ := split_cons hc a
      obtain ⟨part', parts', heq', hcons'⟩ := split_cons hc (a ++ '/' :: b)
      rw [ih, heq, cons_append] at heq'
      obtain ⟨rfl, rfl⟩ := List.cons.inj heq'
      rw [cons_append, hcons', hcons, cons_append]

lemma join_cons_ne_nil (part : List Char) (h : parts ≠ []) : join (part :: parts) = part ++ '/' :: join parts := by
  obtain ⟨next, rest, rfl⟩ := exists_cons_of_ne_nil h
  rfl

lemma join_split : ∀ cs : List Char, join (split cs) = cs
  | [] => rfl
  | c :: cs => by
    have ih := join_split cs
    by_cases hc : c = '/'
    · rw [hc, split_slash, join_cons_ne_nil [] (split_ne_nil cs), ih]
      rfl
    · obtain ⟨part, parts, heq, hcons⟩ := split_cons hc cs
      rw [heq] at ih
      rw [hcons]
      cases parts with
      | nil | cons next parts => exact congrArg (c :: ·) ih

lemma slash_not_mem : ∀ {cs part}, part ∈ split cs → '/' ∉ part
  | [], part, h => by
    rw [mem_singleton.1 h]
    exact not_mem_nil
  | c :: cs, part, h => by
    by_cases hc : c = '/'
    · rw [hc, split_slash] at h
      rcases mem_cons.1 h with rfl | h
      · exact not_mem_nil
      · exact slash_not_mem h
    · obtain ⟨first, parts, heq, hcons⟩ := split_cons hc cs
      rw [hcons] at h
      rcases mem_cons.1 h with rfl | h
      · have hfirst : '/' ∉ first := slash_not_mem (heq ▸ mem_cons_self)
        simp [Ne.symm hc, hfirst]
      · exact slash_not_mem (heq ▸ mem_cons_of_mem _ h)

lemma split_of_slash_not_mem : ∀ {part}, '/' ∉ part → split part = [part]
  | [], _ => rfl
  | c :: part, h => by
    obtain ⟨hc, hpart⟩ : '/' ≠ c ∧ '/' ∉ part := by simpa using h
    obtain ⟨first, parts, heq, hcons⟩ := split_cons (Ne.symm hc) part
    rw [split_of_slash_not_mem hpart] at heq
    obtain ⟨rfl, rfl⟩ := List.cons.inj heq
    exact hcons

lemma split_join : ∀ {parts}, parts ≠ [] → (∀ part ∈ parts, '/' ∉ part) → split (join parts) = parts
  | [part], _, h => split_of_slash_not_mem (h part mem_cons_self)
  | part :: next :: parts, _, h => by
    obtain ⟨hpart, hrest⟩ := forall_mem_cons.1 h
    rw [join_cons_ne_nil part (cons_ne_nil _ _), split_append_slash, split_of_slash_not_mem hpart,
      split_join (cons_ne_nil _ _) hrest]
    rfl

lemma eq_of_sameFile (ha : Dotless a) (hb : Dotless b) (h : SameFile a b) : a = b := by
  have hkeep : ∀ {path : String}, Dotless path →
      (split path.toList).filter (· ≠ ['.']) = split path.toList := fun hpath =>
    filter_eq_self.2 fun part hpart => by
      rw [decide_eq_true_eq]
      rintro rfl
      exact hpath hpart
  rw [SameFile, hkeep ha, hkeep hb] at h
  have hjoin := congrArg join h
  rw [join_split, join_split] at hjoin
  exact String.toList_injective hjoin

/-! ### Names of imports -/

lemma trim_subset (parts : List (List Char)) : trim parts ⊆ parts := fun _ h =>
  mem_reverse.1 (dropWhile_subset _ (mem_reverse.1 h))

lemma lead_of_dotless (h : ['.'] ∉ split path) :
    (∃ rest, path = '/' :: rest ∧ lead path = (.root, rest)) ∨ lead path = (.none, path) := by
  unfold lead
  split
  · next rest => exact .inl ⟨rest, rfl, rfl⟩
  · exact absurd h (by decide)
  · next rest =>
    have hdot : ['.'] ∈ split ['.'] ++ split rest := mem_append_left _ (by decide)
    rw [← split_append_slash] at hdot
    exact absurd hdot h
  · exact .inr rfl

lemma dot_not_mem_join (hslash : ∀ part ∈ parts, '/' ∉ part) (hdot : ['.'] ∉ parts) : ['.'] ∉ split (join parts) := by
  cases parts with
  | nil => decide
  | cons part parts => rwa [split_join (cons_ne_nil _ _) hslash]

lemma dot_not_mem_parent (h : ['.'] ∉ split path) (hdir : parent? path = some dir) : ['.'] ∉ split dir := by
  have hdirs : ∀ {rest : List Char}, ['.'] ∉ split rest → ['.'] ∉ split (join (trim (trim (split rest)).dropLast)) := by
    intro rest hrest
    have hsubset : trim (trim (split rest)).dropLast ⊆ split rest := fun part hpart =>
      trim_subset _ (dropLast_subset _ (trim_subset _ hpart))
    exact dot_not_mem_join (fun part hpart => slash_not_mem (hsubset hpart)) fun hmem => hrest (hsubset hmem)
  unfold parent? at hdir
  rcases lead_of_dotless h with ⟨rest, rfl, hlead⟩ | hlead <;> simp only [hlead] at hdir <;> split at hdir <;>
    first | contradiction | cases hdir
  · have hrest : ['.'] ∉ split rest := fun hmem => h (.tail _ hmem)
    intro hmem
    exact (mem_cons.1 hmem).elim (by simp) (hdirs hrest)
  · exact hdirs h

lemma dot_not_mem_inside (hdir : ['.'] ∉ split dir) (hpath : ['.'] ∉ split path) :
    ['.'] ∉ split (inside dir path) := by
  unfold inside
  split
  · exact hpath
  · split
    · next hlast =>
      obtain ⟨front, rfl⟩ := List.getLast?_eq_some_iff.1 hlast
      rw [append_assoc, singleton_append, split_append_slash, mem_append, not_or]
      refine ⟨fun hmem => hdir ?_, hpath⟩
      rw [split_append_slash]
      exact mem_append_left _ hmem
    · rw [split_append_slash, mem_append, not_or]
      exact ⟨hdir, hpath⟩

lemma Dotless.resolve {importer path : String} (himporter : Dotless importer) (hpath : Dotless path) :
    Dotless (resolve importer path) := by
  unfold Path.resolve
  split
  · exact hpath
  · exact hpath
  · next dir _ hdir =>
    rw [Dotless, String.toList_ofList]
    exact dot_not_mem_inside (dot_not_mem_parent himporter hdir) hpath

end Path

namespace Loaded

variable {files : Files} {root p : Program} {chain : List String} {l l' : Loaded} {paths : List Name}

namespace Loads

/-! ### Every import that leads back is reported -/

lemma diagnostics_subset (h : Loads files chain p l paths l') : l.diagnostics ⊆ l'.diagnostics := by
  induction h with
  | nil => exact List.Subset.refl _
  | circular _ _ ih | missing _ _ _ _ ih => exact fun d hd => ih (mem_append_left _ hd)
  | known _ _ _ ih => exact ih
  | read _ _ _ _ _ _ _ ihInside ihRest => exact fun d hd => ihRest (ihInside hd)

lemma reports_last (h : Loads files chain p l paths l') : ∀ path ∈ paths,
    resolve p.name path.node ∈ chain → backDiagnostic chain p path ∈ l'.diagnostics := by
  induction h with
  | nil => simp
  | circular _ rest ih =>
    refine forall_mem_cons.2 ⟨fun _ => ?_, ih⟩
    exact rest.diagnostics_subset (mem_append_right _ mem_cons_self)
  | known hnew _ _ ih | missing hnew _ _ _ ih => exact forall_mem_cons.2 ⟨fun hmem => absurd hmem hnew, ih⟩
  | read hnew _ hname _ _ _ _ _ ihRest =>
    exact forall_mem_cons.2 ⟨fun hmem => absurd (hname ▸ hmem) hnew, ihRest⟩

/-- Every program is read behind a chain of imports, and its imports that lead back to the chain are reported. -/
lemma reports (h : Loads files chain p l paths l') (hchain : Chain files root chain p)
    (hpaths : paths ⊆ importPaths p) : ∀ q ∈ l'.imports, q ∈ l.imports ∨
      ∃ behind, Chain files root behind q ∧ ∀ path ∈ importPaths q,
        resolve q.name path.node ∈ behind → backDiagnostic behind q path ∈ l'.diagnostics := by
  induction h with
  | nil => exact fun q hq => .inl hq
  | circular _ _ ih | known _ _ _ ih | missing _ _ _ _ ih => exact ih hchain (cons_subset.1 hpaths).2
  | @read chain p q l between l' path paths text hnew _ hname htext hparsed inside rest ihInside ihRest =>
    obtain ⟨hpath, hpaths⟩ := cons_subset.1 hpaths
    have hlonger := hchain.snoc hpath hname hnew htext hparsed
    intro x hx
    rcases ihRest hchain hpaths x hx with hx | hx
    · rcases ihInside hlonger (List.Subset.refl _) x hx with hx | ⟨behind, hbehind, hreports⟩
      · rcases mem_append.1 hx with hx | hx
        · exact .inl hx
        · rw [mem_singleton.1 hx]
          refine .inr ⟨_, hlonger, fun path hpath hback => ?_⟩
          exact rest.diagnostics_subset (inside.reports_last path hpath hback)
      · refine .inr ⟨behind, hbehind, fun path hpath hback => ?_⟩
        exact rest.diagnostics_subset (hreports path hpath hback)
    · exact .inr hx

end Loads

end Loaded

/-! ### Files that are read once -/

/-- No two names that a load has met mean the same file. -/
def Loaded.SpelledOnce (l : Loaded) : Prop := ∀ a ∈ l.seen, ∀ b ∈ l.seen, Path.SameFile a b → a = b

namespace Program

open Loaded

variable {files : Files} {root : Program} {loaded : Loaded}

lemma mem_of_imports (h : root.load files = .ok loaded) (ha : a ∈ loaded.seen) (hb : Imports files root a b) :
    ∃ q ∈ root :: loaded.imports, ∃ path ∈ importPaths q, b = resolve a path.node := by
  have hsound := (loads_of_load h).sound (.start files root) (List.Subset.refl _) (.start files root)
  have hprograms : ∀ q ∈ root :: loaded.imports, programAt files root q.name = some q :=
    forall_mem_cons.2 ⟨programAt_root, hsound.programs⟩
  rcases hsound.visited_of_seen a ha with hvisited | hnone
  · obtain ⟨q, hq, rfl⟩ : ∃ q ∈ root :: loaded.imports, q.name = a := mem_map.1 hvisited
    rw [Imports, importsOf_eq (hprograms q hq)] at hb
    obtain ⟨path, hpath, rfl⟩ := mem_map.1 hb
    exact ⟨q, hq, path, hpath, rfl⟩
  · rw [Imports, importsOf, hnone] at hb
    cases hb

lemma dotless_of_load (h : root.load files = .ok loaded) (hroot : Path.Dotless root.name)
    (hpaths : ∀ q ∈ root :: loaded.imports, ∀ path ∈ importPaths q, Path.Dotless path.node) :
    ∀ name ∈ loaded.seen, Path.Dotless name := by
  intro name hname
  induction (mem_seen_of_load h).1 hname with
  | refl => exact hroot
  | @tail a b hreach hstep ih =>
    have ha : a ∈ loaded.seen := (mem_seen_of_load h).2 hreach
    obtain ⟨q, hq, path, hpath, rfl⟩ := mem_of_imports h ha hstep
    exact (ih ha).resolve (hpaths q hq path hpath)

/-- Every program is read behind a chain of imports, and its imports that lead back to the chain are
reported. -/
lemma reports_of_load (h : root.load files = .ok loaded) : ∀ q ∈ root :: loaded.imports,
    ∃ chain, Chain files root chain q ∧ ∀ path ∈ importPaths q,
      resolve q.name path.node ∈ chain → backDiagnostic chain q path ∈ loaded.diagnostics := by
  have hloads := loads_of_load h
  refine forall_mem_cons.2 ⟨⟨_, .start files root, hloads.reports_last⟩, fun q hq => ?_⟩
  exact (hloads.reports (.start files root) (List.Subset.refl _) q hq).resolve_left not_mem_nil

lemma chain_subset_seen (h : root.load files = .ok loaded) (hchain : Chain files root chain q) :
    chain ⊆ loaded.seen := by
  obtain ⟨behind, hbehind⟩ := List.head?_eq_some_iff.1 hchain.starts
  have hsteps := hchain.steps
  rw [hbehind] at hsteps ⊢
  exact fun name hname => (mem_seen_of_load h).2 (IsCycle.leads_of_chain hsteps name hname)

/-- Where nothing is written with a dot, all names that are met mean different files. Where they do, no file is
read twice; every program is read behind a chain of imports, and an import of it that means a file of the chain
is reported as circular where it is declared. -/
theorem load_files_once (h : root.load files = .ok loaded) : (Path.Dotless root.name →
      (∀ q ∈ root :: loaded.imports, ∀ path ∈ importPaths q, Path.Dotless path.node) →
      loaded.SpelledOnce) ∧
    (loaded.SpelledOnce → (visited root loaded).Pairwise (fun a b => ¬ Path.SameFile a b) ∧
      ∀ q ∈ root :: loaded.imports, ∃ chain, Chain files root chain q ∧
        ∀ path ∈ importPaths q, ∀ name ∈ chain, Path.SameFile (resolve q.name path.node) name →
          backDiagnostic chain q path ∈ loaded.diagnostics) := by
  have hsound := (loads_of_load h).sound (.start files root) (List.Subset.refl _) (.start files root)
  refine ⟨fun hroot hpaths => ?_, fun honce => ⟨?_, fun q hq => ?_⟩⟩
  · have hdotless := dotless_of_load h hroot hpaths
    exact fun a ha b hb hsame => eq_of_sameFile (hdotless a ha) (hdotless b hb) hsame
  · refine hsound.visited_nodup.imp_of_mem fun ha hb hne hsame => hne ?_
    exact honce _ (hsound.visited_subset ha) _ (hsound.visited_subset hb) hsame
  · obtain ⟨chain, hchain, hreported⟩ := reports_of_load h q hq
    have hseen := chain_subset_seen h hchain
    refine ⟨chain, hchain, fun path hpath name hname hsame => hreported path hpath ?_⟩
    have hq : q.name ∈ loaded.seen := hseen (mem_of_getLast? hchain.ends)
    have hto : resolve q.name path.node ∈ loaded.seen :=
      (mem_seen_of_load h).2 (((mem_seen_of_load h).1 hq).tail (hchain.imports hpath))
    rw [honce _ hto name (hseen hname) hsame]
    exact hname

/-- In two files that import each other nothing is written with a dot. -/
theorem load_files_once_mutual : ∃ root loaded, Program.ofSource "import \"lib.wv\"\n" "app/main.wv" = .ok root ∧
    root.load [("app/lib.wv", "import \"main.wv\"\n")] = .ok loaded ∧
    Path.Dotless root.name ∧
    (∀ q ∈ root :: loaded.imports, ∀ path ∈ importPaths q, Path.Dotless path.node) ∧
    loaded.SpelledOnce ∧
    (visited root loaded).Pairwise (fun a b => ¬ Path.SameFile a b) ∧
    ∀ q ∈ root :: loaded.imports, ∃ chain, Chain [("app/lib.wv", "import \"main.wv\"\n")] root chain q ∧
      ∀ path ∈ importPaths q, ∀ name ∈ chain, Path.SameFile (resolve q.name path.node) name →
        backDiagnostic chain q path ∈ loaded.diagnostics := by
  have hrun : (Program.ofSource "import \"lib.wv\"\n" "app/main.wv").toOption.any (fun root =>
      (root.load [("app/lib.wv", "import \"main.wv\"\n")]).toOption.any fun loaded =>
        decide (Path.Dotless root.name)
        && (root :: loaded.imports).all fun q => (importPaths q).all fun path => Path.Dotless path.node)
      = true := by
    decide +kernel
  obtain ⟨root, hroot, hrun⟩ := Except.of_any hrun
  obtain ⟨loaded, hload, hrun⟩ := Except.of_any hrun
  simp only [Bool.and_eq_true, decide_eq_true_eq, all_eq_true] at hrun
  have honce := (load_files_once hload).1 hrun.1 hrun.2
  exact ⟨root, loaded, hroot, hload, hrun.1, hrun.2, honce, (load_files_once hload).2 honce⟩

/-- A file that imports itself by a path with a dot. -/
def selfSource : String := "import \"./main.wv\"\nprompt p: \"x\"\n"

/-- With a dot, a file comes back to itself and is read two more times, and only the second of these finds that
its import leads back. -/
theorem dotted_import_read_again : ∃ root loaded, Program.ofSource selfSource "main.wv" = .ok root ∧
    root.load ((Disk.access.gather Command.fileBound (importedNames selfSource "main.wv") []).run
      [("main.wv", selfSource)]).1 = .ok loaded ∧
    imported root = ["./main.wv"] ∧ Path.SameFile "./main.wv" root.name ∧
    (∀ d ∈ loaded.diagnostics, d.file ≠ root.name) ∧
    loaded.imports.map (·.name) = ["./main.wv", "././main.wv"] ∧
    Path.SameFile "./main.wv" "././main.wv" := by
  have hrun : (Program.ofSource selfSource "main.wv").toOption.any (fun root =>
      (root.load ((Disk.access.gather Command.fileBound (importedNames selfSource "main.wv") []).run
        [("main.wv", selfSource)]).1).toOption.any fun loaded =>
          decide (imported root = ["./main.wv"])
          && decide (Path.SameFile "./main.wv" root.name)
          && loaded.diagnostics.all (fun d => decide (d.file ≠ root.name))
          && decide (loaded.imports.map (·.name) = ["./main.wv", "././main.wv"])) = true := by
    decide +kernel
  obtain ⟨root, hroot, hrun⟩ := Except.of_any hrun
  obtain ⟨loaded, hload, hrun⟩ := Except.of_any hrun
  simp only [Bool.and_eq_true, decide_eq_true_eq, all_eq_true] at hrun
  obtain ⟨⟨⟨himported, hsame⟩, hfiles⟩, hnames⟩ := hrun
  exact ⟨root, loaded, hroot, hload, himported, hsame, hfiles, hnames, by decide⟩

end Program

end Workflow
