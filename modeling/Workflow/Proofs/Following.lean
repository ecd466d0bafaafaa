import Workflow.Proofs.Validation

/-!
Loads without a problem. Where every import is found and none leads back, loading comes down to the files that
are read and their order: `Follows` has one rule for a file that has been read already, and one for a file that
is read now. A root may have another name beside which its imports are the same, if that is none of the files
that are read.
-/

namespace Workflow

open List Workflow.Path Loaded Program

variable {root other : String}

lemma Program.name_of_ofSource {source name : String} (h : ofSource source name = .ok p) : p.name = name :=
  congrArg Program.name (Except.ok.inj (h.symm.trans (ofSource_rename h name)))

namespace Loaded

def names (reads : List (Program × String)) : List String := reads.map (·.1.name)

@[simp] lemma names_append (reads more : List (Program × String)) :
    names (reads ++ more) = names reads ++ names more :=
  map_append

/-- What has been loaded for a root, if no import was a problem: programs, each with the digest of its
text. -/
def ofReads (root : String) (reads : List (Program × String)) : Loaded where
  seen := (names reads).reverse ++ [root]
  imports := reads.map (·.1)
  fingerprints := reads.map fun r => (r.1.name, r.2)

lemma map_fingerprints (root : String) (reads : List (Program × String)) :
    (ofReads root reads).fingerprints.map (·.1) = names reads := by
  rw [ofReads, names, map_map]
  rfl

lemma ofReads_snoc (root : String) (reads : List (Program × String)) (p : Program) (digest : String) :
    ofReads root (reads ++ [(p, digest)]) =
      { seen := p.name :: (ofReads root reads).seen
        imports := (ofReads root reads).imports ++ [p]
        fingerprints := (ofReads root reads).fingerprints ++ [(p.name, digest)]
        diagnostics := (ofReads root reads).diagnostics } := by
  simp [ofReads, names]

/-- Behind a chain of files, the imports of a file can be followed without a problem, from some programs read
before to all that are read. -/
inductive Follows (files : Files) : List String → String → List (Program × String) → List Name →
    List (Program × String) → Prop where
  | done {chain} {importer} {reads} : Follows files chain importer reads [] reads
  | known {chain} {importer} {reads after} {path} {paths} (hnew : resolve importer path.node ∉ chain)
      (hread : resolve importer path.node ∈ names reads)
      (rest : Follows files chain importer reads paths after) :
      Follows files chain importer reads (path :: paths) after
  | read {chain} {importer text} {reads between after} {path} {paths} {imported}
      (hnew : resolve importer path.node ∉ chain)
      (hunread : resolve importer path.node ∉ names reads)
      (htext : files.get? (resolve importer path.node) = some text)
      (himported : ofSource text (resolve importer path.node) = .ok imported)
      (inner : Follows files (chain ++ [imported.name]) imported.name
        (reads ++ [(imported, Digest.ofText text)]) (importPaths imported) between)
      (rest : Follows files chain importer between paths after) :
      Follows files chain importer reads (path :: paths) after

namespace Follows

variable {files : Files} {chain : List String} {importer : String} {reads after : List (Program × String)}
  {paths : List Name}

/-! ### What is read -/

lemma subset (h : Follows files chain importer reads paths after) : names reads ⊆ names after := by
  induction h with
  | done => exact List.Subset.refl _
  | known _ _ _ ih => exact ih
  | read _ _ _ _ _ _ inner rest =>
    rw [names_append] at inner
    exact fun x hx => rest (inner (mem_append_left _ hx))

lemma not_mem (h : Follows files chain importer reads paths after) (hroot : root ∈ chain)
    (hreads : root ∉ names reads) : root ∉ names after := by
  induction h with
  | done => exact hreads
  | known _ _ _ ih => exact ih hroot hreads
  | read hnew _ _ himported _ _ inner rest =>
    refine rest hroot (inner (mem_append_left _ hroot) ?_)
    rw [names_append, mem_append]
    rintro (hmem | hmem)
    · exact hreads hmem
    · have hname := (mem_singleton.1 hmem).trans (name_of_ofSource himported)
      exact hnew (hname ▸ hroot)

/-! ### Another name for the root -/

lemma beside (h : Follows files chain importer reads paths after)
    (hpaths : ∀ path ∈ paths, resolve other path.node = resolve importer path.node) :
    Follows files chain other reads paths after := by
  induction h with
  | done => exact .done
  | known hnew hread _ ih =>
    have hpath := hpaths _ mem_cons_self
    exact .known (hpath ▸ hnew) (hpath ▸ hread) (ih fun p hp => hpaths p (.tail _ hp))
  | read hnew hunread htext himported inner _ _ ih =>
    have hpath := hpaths _ mem_cons_self
    exact .read (hpath ▸ hnew) (hpath ▸ hunread) (hpath ▸ htext) (hpath ▸ himported) inner
      (ih fun p hp => hpaths p (.tail _ hp))

lemma rename (h : Follows files (root :: chain) importer reads paths after) (hother : other ∉ names after) :
    Follows files (other :: chain) importer reads paths after := by
  have hfree : ∀ {name : String} {chain : List String}, name ∉ root :: chain → name ≠ other →
      name ∉ other :: chain := fun hnew hne hmem =>
    hnew (.tail _ ((mem_cons.1 hmem).resolve_left hne))
  generalize hchain : root :: chain = whole at h
  induction h generalizing chain with
  | done => exact .done
  | known hnew hread rest ih =>
    subst hchain
    refine .known (hfree hnew ?_) hread (ih hother rfl)
    rintro rfl
    exact hother (rest.subset hread)
  | read hnew hunread htext himported inner rest ihinner ihrest =>
    subst hchain
    have hbetween : other ∉ names _ := fun hmem => hother (rest.subset hmem)
    refine .read (hfree hnew ?_) hunread htext himported (ihinner hbetween rfl) (ihrest hother rfl)
    rw [← name_of_ofSource himported]
    rintro rfl
    refine hbetween (inner.subset ?_)
    rw [names_append]
    exact mem_append_right _ mem_cons_self

lemma unique (h : Follows files (root :: chain) importer reads paths after)
    (h' : Follows files (other :: chain) importer reads paths after') : after = after' := by
  generalize hchain : root :: chain = whole at h
  induction h generalizing chain after' with
  | done =>
    cases h'
    rfl
  | known _ hread _ ih =>
    cases h' with
    | known _ _ rest' => exact ih rest' hchain
    | read _ hunread _ _ _ _ => exact absurd hread hunread
  | read _ hunread htext himported _ _ ihinner ihrest =>
    cases h' with
    | known _ hread _ => exact absurd hread hunread
    | read _ _ htext' himported' inner' rest' =>
      cases htext.symm.trans htext'
      cases himported.symm.trans himported'
      subst hchain
      cases ihinner inner' rfl
      exact ihrest rest' rfl

end Follows

/-! ### Loads -/

variable {files : Files} {n : Nat} {chain : List String} {p : Program} {reads after : List (Program × String)}
  {l : Loaded}

lemma contains_seen {name : String} (hroot : root ∈ chain) (hnew : name ∉ chain) :
    (ofReads root reads).seen.contains name = true ↔ name ∈ names reads := by
  have hne : name ≠ root := fun heq => hnew (heq ▸ hroot)
  simp [ofReads, hne]

lemma visit_of_follows (h : Follows files chain p.name reads paths after) (hroot : root ∈ chain)
    (hn : (ahead files chain).length ≤ n) :
    paths.foldlM (enter files (visit files n) chain p) (ofReads root reads) = .ok (ofReads root after) := by
  generalize himporter : p.name = importer at h
  induction h generalizing n p with
  | done => rfl
  | known hnew hread rest ih =>
    subst himporter
    refine Except.bind_eq_ok.2 ⟨_, ?_, ih hroot hn rfl⟩
    rw [enter, if_neg (by simpa using hnew), if_pos ((contains_seen hroot hnew).2 hread)]
  | read hnew hunread htext himported inner rest ihinner ihrest =>
    subst himporter
    have hname := name_of_ofSource himported
    have hfewer := ahead_lt (by simpa using hnew) htext
    refine Except.bind_eq_ok.2 ⟨_, ?_, ihrest hroot hn rfl⟩
    rw [enter, if_neg (by simpa using hnew), if_neg (by rw [contains_seen hroot hnew]; exact hunread), htext]
    refine Except.bind_eq_ok.2 ⟨_, himported, ?_⟩
    obtain ⟨m, rfl⟩ := Nat.exists_eq_succ_of_ne_zero (Nat.ne_of_gt (Nat.lt_of_lt_of_le
      (Nat.lt_of_le_of_lt (Nat.zero_le _) hfewer) hn))
    rw [← hname] at hfewer ⊢
    rw [← ofReads_snoc]
    exact ihinner (mem_append_left _ hroot) (by omega) rfl

lemma clean_of_enter (h : enter files (visit files n) chain p l path = .ok l') (hclean : l'.Agrees files files) :
    l.Agrees files files := by
  cases enters_of_eq h with
  | circular | missing => exact absurd hclean (not_agrees_report rfl)
  | known => exact hclean
  | read _ _ _ _ h => exact ⟨(agrees_of_visit n _ _ h hclean).clean, fun _ _ => rfl⟩

lemma follows_of_visit : ∀ (n : Nat) {chain p reads l}, root ∈ chain → (ahead files chain).length < n →
    visit files n chain (ofReads root reads) p = .ok l → l.Agrees files files →
    ∃ after, l = ofReads root after ∧ Follows files chain p.name reads (importPaths p) after
  | n + 1, chain, p, reads, l, hroot, hn, h, hclean => by
    rw [visit] at h
    generalize importPaths p = paths at h ⊢
    induction paths generalizing reads with
    | nil =>
      cases h
      exact ⟨reads, rfl, .done⟩
    | cons path paths ih =>
      obtain ⟨mid, hfirst, hrest⟩ := Except.bind_eq_ok.1 h
      have hmid : mid.Agrees files files := (Except.foldlM_transfer
        (fun _ _ _ h hclean => ⟨h, clean_of_enter h hclean⟩) paths hrest hclean).2
      generalize hresult : Except.ok mid = result at hfirst
      cases enters_of_eq hfirst with
      | circular | missing =>
        cases hresult
        exact absurd hmid (not_agrees_report rfl)
      | known hnew hseen =>
        cases hresult
        have hnew : resolve p.name path.node ∉ chain := by simpa using hnew
        obtain ⟨after, rfl, hfollows⟩ := ih reads hrest
        exact ⟨after, rfl, .known hnew ((contains_seen hroot hnew).1 hseen) hfollows⟩
      | malformed => cases hresult
      | @read text imported _ hnew hunseen htext himported hgo =>
        subst hresult
        have hnew : resolve p.name path.node ∉ chain := by simpa using hnew
        have hname := name_of_ofSource himported
        have hfewer := ahead_lt (by simpa using hnew) htext
        have hunread : resolve p.name path.node ∉ names reads :=
          fun hmem => hunseen ((contains_seen hroot hnew).2 hmem)
        rw [← hname] at hfewer hgo
        rw [← ofReads_snoc] at hgo
        obtain ⟨between, rfl, hinner⟩ := follows_of_visit n (mem_append_left _ hroot) (by omega) hgo hmid
        obtain ⟨after, rfl, hfollows⟩ := ih between hrest
        exact ⟨after, rfl, .read hnew hunread htext himported hinner hfollows⟩

end Loaded

namespace Program

variable {files : Files} {p : Program} {loaded : Loaded}

lemma load_of_follows (h : Loaded.Follows files [p.name] p.name [] (importPaths p) reads) :
    p.load files = .ok (ofReads p.name reads) :=
  visit_of_follows h mem_cons_self (length_filter_le _ _)

lemma follows_of_load (h : p.load files = .ok loaded)
    (hclean : ∀ d ∈ loaded.diagnostics, d.isError = false) : ∃ reads, loaded = ofReads p.name reads ∧
      Loaded.Follows files [p.name] p.name [] (importPaths p) reads :=
  follows_of_visit _ mem_cons_self (Nat.lt_succ_of_le (length_filter_le _ _)) h ⟨hclean, fun _ _ => rfl⟩

/-- A program whose imports load without an error loads the same under another name, as long as its imports mean
the same files beside it and the name is none of the files that are read; if it is one of them, loading does not
succeed. -/
lemma load_rename (h : p.load files = .ok loaded) (hclean : ∀ d ∈ loaded.diagnostics, d.isError = false)
    (hpaths : ∀ path ∈ importPaths p, resolve other path.node = resolve p.name path.node) :
    (other ∉ loaded.fingerprints.map (·.1) → ∃ seen,
      ({ p with name := other } : Program).load files = .ok { loaded with seen := seen }) ∧
    ∀ loaded', ({ p with name := other } : Program).load files = .ok loaded' →
      (∀ d ∈ loaded'.diagnostics, d.isError = false) → other ∉ loaded.fingerprints.map (·.1) := by
  obtain ⟨reads, rfl, hfollows⟩ := follows_of_load h hclean
  rw [map_fingerprints]
  refine ⟨fun hother => ⟨_, load_of_follows ((hfollows.rename hother).beside hpaths)⟩, ?_⟩
  intro loaded' h' hclean'
  obtain ⟨reads', rfl, hfollows'⟩ := follows_of_load h' hclean'
  have hsame := hfollows.unique (hfollows'.beside fun path hpath => (hpaths path hpath).symm)
  rw [hsame]
  exact hfollows'.not_mem mem_cons_self not_mem_nil

end Program

end Workflow
