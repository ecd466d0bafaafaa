import Workflow.Proofs.Definitions

/-!
Loading of imports. What loading comes to depends on the files that it reads, and on nothing else. These are on
record, by name and digest, and in other files that have the same texts under these names the same load
succeeds. The fuel of either load is enough for every chain of imports.
-/

namespace Workflow

open List Workflow.Path

lemma Except.foldlM_transfer {α β ε : Type} {Good : β → Prop} {f g : β → α → Except ε β}
    (step : ∀ b a b', f b a = .ok b' → Good b' → g b a = .ok b' ∧ Good b) : ∀ (as : List α) {b b'},
    as.foldlM f b = .ok b' → Good b' → as.foldlM g b = .ok b' ∧ Good b
  | [], _, _, h, hgood => by
    cases h
    exact ⟨rfl, hgood⟩
  | a :: as, b, b', h, hgood => by
    obtain ⟨c, hc, h⟩ := Except.bind_eq_ok.1 h
    obtain ⟨hrest, hmid⟩ := Except.foldlM_transfer step as h hgood
    obtain ⟨hfirst, hstart⟩ := step b a c hc hmid
    rw [foldlM_cons, hfirst]
    exact ⟨hrest, hstart⟩

namespace Loaded

/-! ### One import -/

section Enter

variable (files : Files) (go : List String → Loaded → Program → Except CompileError Loaded)
  (chain : List String) (p : Program) (l : Loaded) (path : Name)

/-- What following an import comes to. -/
inductive Enters : Except CompileError Loaded → Prop where
  | circular (hchain : chain.contains (resolve p.name path.node) = true) :
      Enters (.ok (l.report p.name (.circularImport (chain ++ [resolve p.name path.node])) path.span))
  | known (hnew : ¬ chain.contains (resolve p.name path.node) = true)
      (hseen : l.seen.contains (resolve p.name path.node) = true) : Enters (.ok l)
  | missing (hnew : ¬ chain.contains (resolve p.name path.node) = true)
      (hunseen : ¬ l.seen.contains (resolve p.name path.node) = true)
      (htext : files.get? (resolve p.name path.node) = none) :
      Enters (.ok ({ l with seen := resolve p.name path.node :: l.seen }.report p.name
        (.importNotFound path.node) path.span))
  | malformed {text} {e} (hnew : ¬ chain.contains (resolve p.name path.node) = true)
      (htext : files.get? (resolve p.name path.node) = some text)
      (himported : Program.ofSource text (resolve p.name path.node) = .error e) :
      Enters (.error e)
  | read {text} {imported} {r} (hnew : ¬ chain.contains (resolve p.name path.node) = true)
      (hunseen : ¬ l.seen.contains (resolve p.name path.node) = true)
      (htext : files.get? (resolve p.name path.node) = some text)
      (himported : Program.ofSource text (resolve p.name path.node) = .ok imported)
      (hgo : go (chain ++ [resolve p.name path.node])
        { seen := resolve p.name path.node :: l.seen
          imports := l.imports ++ [imported]
          fingerprints := l.fingerprints ++ [(resolve p.name path.node, Digest.ofText text)]
          diagnostics := l.diagnostics } imported = r) :
      Enters r

lemma enters_enter : Enters files go chain p l path (enter files go chain p l path) := by
  unfold enter
  dsimp only
  split
  · next hchain => exact .circular hchain
  · next hnew =>
    split
    · next hseen => exact .known hnew hseen
    · next hunseen =>
      split
      · next htext => exact .missing hnew hunseen htext
      · next text htext =>
        cases himported : Program.ofSource text (resolve p.name path.node) with
        | error e => exact .malformed hnew htext himported
        | ok imported => exact .read hnew hunseen htext himported rfl

end Enter

variable {files others : Files} {go go' : List String → Loaded → Program → Except CompileError Loaded}
  {chain : List String} {p : Program} {l l' : Loaded} {path : Name}

lemma enters_of_eq {r : Except CompileError Loaded} (h : enter files go chain p l path = r) :
    Enters files go chain p l path r :=
  h ▸ enters_enter files go chain p l path

/-! ### What loading keeps -/

/-- Every file on record has been read, and its digest is that of its text. -/
def Recorded (files : Files) (l : Loaded) : Prop :=
  ∀ e ∈ l.fingerprints, ∃ text, files.get? e.1 = some text ∧ e.2 = Digest.ofText text

/-- Every imported program has been read from a text, the record is right, and problems are reported. -/
structure Read (files : Files) (l : Loaded) : Prop where
  imports : ∀ q ∈ l.imports, ∃ text name, Program.ofSource text name = .ok q
  recorded : l.Recorded files
  reported : ∀ d ∈ l.diagnostics, ∃ q : Problem, d = q.toDiagnostic d.file

lemma visit_read (files : Files) : ∀ (n : Nat) (chain : List String) (p : Program)
    {l l' : Loaded}, l.Read files → visit files n chain l p = .ok l' → l'.Read files
  | 0, _, _, _, _, hl, h => by cases h; exact hl
  | n + 1, chain, p, l, l', hl, h => by
    refine Except.foldlM_keeps (fun l path l' hl h => ?_) _ hl h
    cases enters_of_eq h with
    | known => exact hl
    | circular | missing =>
      exact ⟨hl.imports, hl.recorded, forall_mem_append.2 ⟨hl.reported, forall_mem_singleton.2 ⟨_, rfl⟩⟩⟩
    | read _ _ htext himported h =>
      refine visit_read files n _ _ ⟨?_, ?_, ?_⟩ h
      · exact forall_mem_append.2 ⟨hl.imports, forall_mem_singleton.2 ⟨_, _, himported⟩⟩
      · exact forall_mem_append.2 ⟨hl.recorded, forall_mem_singleton.2 ⟨_, htext, rfl⟩⟩
      · exact hl.reported

/-! ### Chains of imports end -/

/-- The files that a chain of imports can still lead to. -/
def ahead (files : Files) (chain : List String) : Files := files.filter fun e => !chain.contains e.1

lemma ahead_lt {name text : String} (hnew : ¬ chain.contains name = true) (htext : files.get? name = some text) :
    (ahead files (chain ++ [name])).length < (ahead files chain).length := by
  have hsplit : ahead files (chain ++ [name]) = (ahead files chain).filter (·.1 != name) := by
    rw [ahead, ahead, filter_filter]
    refine filter_congr fun e _ => ?_
    rw [Bool.eq_iff_iff]
    simp [and_comm]
  rw [hsplit, length_filter_lt_length_iff_exists]
  refine ⟨(name, text), mem_filter.2 ⟨Table.mem_of_get? htext, ?_⟩, by simp⟩
  simpa using hnew

/-! ### The same texts load to the same -/

/-- A load without errors whose files have the same texts elsewhere. -/
structure Agrees (files others : Files) (l : Loaded) : Prop where
  clean : ∀ d ∈ l.diagnostics, d.isError = false
  same : ∀ e ∈ l.fingerprints, others.get? e.1 = files.get? e.1

lemma not_agrees_report {file : String} {cause : Cause} {span : Span}
    (hsevere : cause.code.severity = .error) : ¬ (l.report file cause span).Agrees files others := by
  intro h
  have hd := h.clean _ (mem_append_right _ mem_cons_self)
  simp [Diagnostic.isError, Diagnostic.severity, Problem.toDiagnostic, hsevere] at hd

lemma agrees_of_visit : ∀ (n : Nat) (chain : List String) (p : Program) {l l'},
    visit files n chain l p = .ok l' → l'.Agrees files others → l.Agrees files others
  | 0, _, _, _, _, h, hagrees => by cases h; exact hagrees
  | n + 1, chain, p, l, l', h, hagrees => by
    refine (Except.foldlM_transfer (fun l path l' h hagrees => ⟨h, ?_⟩) _ h hagrees).2
    cases enters_of_eq h with
    | circular | missing => exact absurd hagrees (not_agrees_report rfl)
    | known => exact hagrees
    | read _ _ _ _ h =>
      have hbefore := agrees_of_visit n _ _ h hagrees
      exact ⟨hbefore.clean, fun e he => hbefore.same e (mem_append_left _ he)⟩

/-- A load goes on elsewhere as it does here: the files that it reads are part of its record in the end. -/
lemma visit_transfer : ∀ (n m : Nat) (chain : List String) (p : Program) {l l'},
    (ahead files chain).length < n → (ahead others chain).length < m →
    visit files n chain l p = .ok l' → l'.Agrees files others → visit others m chain l p = .ok l'
  | n + 1, m + 1, chain, p, l, l', hn, hm, h, hagrees => by
    refine (Except.foldlM_transfer (fun l path l' h hagrees => ?_) _ h hagrees).1
    cases enters_of_eq h with
    | circular | missing => exact absurd hagrees (not_agrees_report rfl)
    | known hnew hseen =>
      refine ⟨?_, hagrees⟩
      rw [enter, if_neg hnew, if_pos hseen]
    | read hnew hunseen htext himported h =>
      have hbefore := agrees_of_visit n _ _ h hagrees
      have hothers := (hbefore.same _ (mem_append_right _ mem_cons_self)).trans htext
      have hfewer := ahead_lt hnew htext
      have hfewer' := ahead_lt hnew hothers
      have hvisit := visit_transfer n m _ _ (by omega) (by omega) h hagrees
      refine ⟨?_, hbefore.clean, fun e he => hbefore.same e (mem_append_left _ he)⟩
      rw [enter, if_neg hnew, if_neg hunseen, hothers]
      exact Except.bind_eq_ok.2 ⟨_, himported, hvisit⟩

end Loaded

namespace Program

variable {files others : Files} {p : Program} {loaded : Loaded}

lemma read_load (h : p.load files = .ok loaded) : loaded.Read files :=
  Loaded.visit_read files _ _ p ⟨forall_mem_nil _, fun _ he => absurd he not_mem_nil, forall_mem_nil _⟩ h

lemma load_read (h : p.load files = .ok loaded) :
    ∀ q ∈ loaded.imports, ∃ text name, ofSource text name = .ok q := (read_load h).imports

lemma load_full (h : p.load files = .ok loaded) : ∀ q ∈ loaded.imports, q.Full := by
  intro q hq
  obtain ⟨_, _, hread⟩ := load_read h q hq
  exact ofSource_full hread

lemma load_recorded (h : p.load files = .ok loaded) : loaded.Recorded files := (read_load h).recorded

lemma load_transfer (h : p.load files = .ok loaded) (hagrees : loaded.Agrees files others) :
    p.load others = .ok loaded :=
  Loaded.visit_transfer _ _ _ p (Nat.lt_succ_of_le (length_filter_le _ _))
    (Nat.lt_succ_of_le (length_filter_le _ _)) h hagrees

end Program

end Workflow
