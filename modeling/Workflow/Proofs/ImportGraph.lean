import Mathlib.Data.List.Dedup
import Workflow.Proofs.Following
import Workflow.Proofs.Search

/-!
Loading as a walk through the graph of imports, in which a name leads to all names that its program imports.
`Loads` tells loading with no bound on its depth: an import leads back to the chain, has been met before, has no
file, or is read and its own imports are followed first.

Loading reads the programs of all names that the root leads to once each, in the preorder of a depth-first
search, and reports a circular import iff the root leads to a cycle.
-/

namespace Workflow

open List Workflow.Path Program

namespace Loaded

variable {text : String} {q : Program}

/-! ### The graph of names -/

/-- The names that a program imports, in the order of its declarations. -/
def imported (p : Program) : List String := (importPaths p).map fun path => resolve p.name path.node

def programAt (files : Files) (root : Program) (name : String) : Option Program :=
  if name = root.name then some root
  else (files.get? name).bind fun text => (ofSource text name).toOption

def importsOf (files : Files) (root : Program) (name : String) : List String :=
  (programAt files root name).elim [] imported

def Imports (files : Files) (root : Program) (a b : String) : Prop := b ∈ importsOf files root a

/-- The order in which a depth-first search comes to names, behind those that it has come to before. It passes
by a name that it has come to before or that nothing is known of. -/
inductive Preorder (next : String → Option (List String)) : List String → List String → List String → Prop where
  | nil {visited} : Preorder next visited [] visited
  | pass {visited names after} {name}
      (old : name ∈ visited ∨ next name = none) (rest : Preorder next visited names after) :
      Preorder next visited (name :: names) after
  | visit {visited names below between after} {name} (new : name ∉ visited)
      (found : next name = some below) (inside : Preorder next (visited ++ [name]) below between)
      (rest : Preorder next between names after) : Preorder next visited (name :: names) after

lemma Preorder.unique {next : String → Option (List String)} {visited names after other : List String}
    (h : Preorder next visited names after) (h' : Preorder next visited names other) : after = other := by
  induction h generalizing other with
  | nil =>
    cases h'
    rfl
  | pass old _ ih =>
    cases h' with
    | pass _ rest => exact ih rest
    | visit new found => simp [new, found] at old
  | visit new found _ _ ihInside ihRest =>
    cases h' with
    | pass old => simp [new, found] at old
    | visit _ found' inside rest =>
      obtain rfl := Option.some.inj (found.symm.trans found')
      obtain rfl := ihInside inside
      exact ihRest rest

variable {files : Files} {root p : Program} {chain : List String} {l l' : Loaded} {paths : List Name}
  {path : Name} {name : String}

@[simp] lemma programAt_root : programAt files root root.name = some root := if_pos rfl

lemma programAt_of_read (hname : name ≠ root.name) (htext : files.get? name = some text)
    (hp : ofSource text name = .ok p) : programAt files root name = some p := by
  simp [programAt, hname, htext, hp, Except.toOption]

lemma programAt_of_missing (hname : name ≠ root.name) (htext : files.get? name = none) :
    programAt files root name = none := by
  simp [programAt, hname, htext]

lemma importsOf_eq (h : programAt files root name = some p) : importsOf files root name = imported p := by
  simp [importsOf, h]

lemma mem_imported (h : path ∈ importPaths p) : resolve p.name path.node ∈ imported p :=
  mem_map_of_mem h

def importGraph (files : Files) (root : Program) : Graph where
  edges := (root.name :: files.names).dedup.flatMap fun name =>
    (importsOf files root name).map (name, ·)

lemma next_flatMap (f : String → List String) (name : String) : ∀ {names : List String}, names.Nodup →
    Graph.next ⟨names.flatMap fun n => (f n).map (n, ·)⟩ name = if name ∈ names then f name else []
  | [], _ => rfl
  | first :: names, h => by
    obtain ⟨hfirst, hrest⟩ := nodup_cons.1 h
    have ih := next_flatMap f name hrest
    rw [Graph.next] at ih ⊢
    rw [flatMap_cons, filter_append, map_append, ih]
    by_cases heq : first = name
    · subst heq
      simp [hfirst, filter_map, Function.comp_def]
    · simp [heq, Ne.symm heq, filter_map, Function.comp_def]

lemma next_importGraph (files : Files) (root : Program) (name : String) :
    (importGraph files root).next name = importsOf files root name := by
  rw [importGraph, next_flatMap _ _ (nodup_dedup _)]
  split
  · rfl
  · next hname =>
    obtain ⟨hroot, hfile⟩ : name ≠ root.name ∧ name ∉ files.names := by
      simpa only [mem_dedup, mem_cons, not_or] using hname
    have htext : files.get? name = none := by
      refine Option.eq_none_iff_forall_ne_some.2 fun text htext => hfile ?_
      exact mem_map.2 ⟨(name, text), Table.mem_of_get? htext, rfl⟩
    rw [importsOf, programAt_of_missing hroot htext]
    rfl

lemma edge_importGraph (files : Files) (root : Program) : (importGraph files root).Edge = Imports files root := by
  funext a b
  rw [← Graph.mem_next, next_importGraph, Imports]

/-! ### Loading without a bound -/

def reportBack (l : Loaded) (chain : List String) (p : Program) (path : Name) : Loaded :=
  l.report p.name (.circularImport (chain ++ [resolve p.name path.node])) path.span

def reportMissing (l : Loaded) (p : Program) (path : Name) : Loaded :=
  { l with seen := resolve p.name path.node :: l.seen }.report p.name (.importNotFound path.node) path.span

def read (l : Loaded) (q : Program) (text : String) : Loaded where
  seen := q.name :: l.seen
  imports := l.imports ++ [q]
  fingerprints := l.fingerprints ++ [(q.name, Digest.ofText text)]
  diagnostics := l.diagnostics

/-- Behind a chain of imports, a load follows paths that a program imports. -/
inductive Loads (files : Files) : List String → Program → Loaded → List Name → Loaded → Prop where
  | nil {chain : List String} {p : Program} {l : Loaded} : Loads files chain p l [] l
  | circular {chain : List String} {p : Program} {l l' : Loaded} {path : Name} {paths : List Name}
      (back : resolve p.name path.node ∈ chain)
      (rest : Loads files chain p (l.reportBack chain p path) paths l') :
      Loads files chain p l (path :: paths) l'
  | known {chain : List String} {p : Program} {l l' : Loaded} {path : Name} {paths : List Name}
      (new : resolve p.name path.node ∉ chain) (seen : resolve p.name path.node ∈ l.seen)
      (rest : Loads files chain p l paths l') : Loads files chain p l (path :: paths) l'
  | missing {chain : List String} {p : Program} {l l' : Loaded} {path : Name} {paths : List Name}
      (new : resolve p.name path.node ∉ chain) (unseen : resolve p.name path.node ∉ l.seen)
      (noText : files.get? (resolve p.name path.node) = none)
      (rest : Loads files chain p (l.reportMissing p path) paths l') :
      Loads files chain p l (path :: paths) l'
  | read {chain : List String} {p q : Program} {l between l' : Loaded} {path : Name} {paths : List Name} {text : String}
      (new : q.name ∉ chain) (unseen : q.name ∉ l.seen) (name_eq : q.name = resolve p.name path.node)
      (hasText : files.get? q.name = some text) (parsed : ofSource text q.name = .ok q)
      (inside : Loads files (chain ++ [q.name]) q (l.read q text) (importPaths q) between)
      (rest : Loads files chain p between paths l') : Loads files chain p l (path :: paths) l'

lemma loads_visit (files : Files) : ∀ (n : Nat) (chain : List String) (p : Program) {l l'},
    (ahead files chain).length < n → visit files n chain l p = .ok l' → Loads files chain p l (importPaths p) l'
  | n + 1, chain, p, l, l', hn, h => by
    have hrun : ∀ (paths : List Name) {l : Loaded},
        paths.foldlM (enter files (visit files n) chain p) l = .ok l' → Loads files chain p l paths l' := by
      intro paths
      induction paths with
      | nil =>
        intro l h
        cases h
        exact .nil
      | cons path paths ih =>
        intro l h
        obtain ⟨mid, hmid, h⟩ := Except.bind_eq_ok.1 h
        cases enters_of_eq hmid with
        | circular hchain => exact .circular (contains_iff_mem.1 hchain) (ih h)
        | known hnew hseen =>
          exact .known (fun hmem => hnew (contains_iff_mem.2 hmem)) (contains_iff_mem.1 hseen) (ih h)
        | missing hnew hunseen htext =>
          exact .missing (fun hmem => hnew (contains_iff_mem.2 hmem))
            (fun hmem => hunseen (contains_iff_mem.2 hmem)) htext (ih h)
        | @read text q r hnew hunseen htext hq hgo =>
          have hname := name_of_ofSource hq
          have hfewer := ahead_lt hnew htext
          have hinside := loads_visit files n _ q (by omega) hgo
          rw [← hname] at hnew hunseen htext hq hinside
          exact .read (fun hmem => hnew (contains_iff_mem.2 hmem))
            (fun hmem => hunseen (contains_iff_mem.2 hmem)) hname htext hq hinside (ih h)
    exact hrun (importPaths p) h

lemma visit_bound (files : Files) : ∀ (n m : Nat) (chain : List String) (l : Loaded) (p : Program),
    (ahead files chain).length < n → (ahead files chain).length < m →
    visit files n chain l p = visit files m chain l p
  | n + 1, m + 1, chain, l, p, hn, hm => by
    have henter : enter files (visit files n) chain p = enter files (visit files m) chain p := by
      funext l path
      unfold enter
      dsimp only
      split
      · rfl
      · next hnew =>
        split
        · rfl
        · split
          · rfl
          · next text htext =>
            have hfewer := ahead_lt hnew htext
            refine bind_congr fun q => ?_
            exact visit_bound files n m _ _ q (by omega) (by omega)
    rw [visit, visit, henter]

/-! ### Chains of imports -/

/-- A chain of imports leads from the root to a program, and comes to no name twice. -/
structure Chain (files : Files) (root : Program) (chain : List String) (p : Program) : Prop where
  starts : chain.head? = some root.name
  ends : chain.getLast? = some p.name
  steps : chain.IsChain (Imports files root)
  nodup : chain.Nodup
  program : programAt files root p.name = some p

namespace Chain

lemma start (files : Files) (root : Program) : Chain files root [root.name] root :=
  ⟨rfl, rfl, .singleton _, nodup_singleton _, programAt_root⟩

lemma ne_root (h : Chain files root chain p) (hname : name ∉ chain) : name ≠ root.name := by
  rintro rfl
  exact hname (mem_of_mem_head? h.starts)

lemma imports (h : Chain files root chain p) (hpath : path ∈ importPaths p) :
    Imports files root p.name (resolve p.name path.node) := by
  rw [Imports, importsOf_eq h.program]
  exact mem_imported hpath

lemma snoc (h : Chain files root chain p) (hpath : path ∈ importPaths p)
    (hname : q.name = resolve p.name path.node) (hnew : q.name ∉ chain)
    (htext : files.get? q.name = some text) (hparsed : ofSource text q.name = .ok q) :
    Chain files root (chain ++ [q.name]) q where
  starts := by simp [h.starts]
  ends := by simp
  steps := by
    refine isChain_append.2 ⟨h.steps, .singleton _, fun last hlast first hfirst => ?_⟩
    obtain rfl : p.name = last := by simpa [h.ends] using hlast
    obtain rfl : q.name = first := by simpa using hfirst
    rw [hname]
    exact h.imports hpath
  nodup := nodup_append.2 ⟨h.nodup, nodup_singleton _, by
    rintro a ha b hb rfl
    exact hnew (mem_singleton.1 hb ▸ ha)⟩
  program := programAt_of_read (h.ne_root hnew) htext hparsed

end Chain

namespace Loads

lemma seen_subset (h : Loads files chain p l paths l') : l.seen ⊆ l'.seen := by
  induction h with
  | nil => exact List.Subset.refl _
  | circular _ _ ih | known _ _ _ ih => exact ih
  | missing _ _ _ _ ih => exact fun x hx => ih (.tail _ hx)
  | read _ _ _ _ _ _ _ ihInside ihRest => exact fun x hx => ihRest (ihInside (.tail _ hx))

lemma keeps {P : Loaded → Prop}
    (back : ∀ {chain : List String} {p : Program} {l : Loaded} {path : Name}, Chain files root chain p →
      path ∈ importPaths p → resolve p.name path.node ∈ chain → P l →
      P (l.reportBack chain p path))
    (missing : ∀ {p : Program} {l : Loaded} {path : Name},
      programAt files root (resolve p.name path.node) = none → P l → P (l.reportMissing p path))
    (read : ∀ {q : Program} {l : Loaded} {text : String}, q.name ∉ l.seen →
      programAt files root q.name = some q → P l → P (l.read q text))
    (h : Loads files chain p l paths l') (hchain : Chain files root chain p)
    (hpaths : paths ⊆ importPaths p) (hl : P l) : P l' := by
  induction h with
  | nil => exact hl
  | circular hback _ ih =>
    obtain ⟨hpath, hpaths⟩ := cons_subset.1 hpaths
    exact ih hchain hpaths (back hchain hpath hback hl)
  | known _ _ _ ih => exact ih hchain (cons_subset.1 hpaths).2 hl
  | missing hnew _ htext _ ih =>
    have hnone := programAt_of_missing (hchain.ne_root hnew) htext
    exact ih hchain (cons_subset.1 hpaths).2 (missing hnone hl)
  | read hnew hunseen hname htext hparsed _ _ ihInside ihRest =>
    obtain ⟨hpath, hpaths⟩ := cons_subset.1 hpaths
    have hlonger := hchain.snoc hpath hname hnew htext hparsed
    have hinside := ihInside hlonger (List.Subset.refl _) (read hunseen hlonger.program hl)
    exact ihRest hchain hpaths hinside

end Loads

/-! ### The order of reading -/

/-- The names whose programs a load has come to. -/
def visited (root : Program) (l : Loaded) : List String := root.name :: l.imports.map (·.name)

@[simp] lemma visited_read (root q : Program) (l : Loaded) (text : String) :
    visited root (l.read q text) = visited root l ++ [q.name] := by
  simp [visited, read]

/-- The record of a load: every name is met once, every program is read once from the name it has, and
its file has been taken down. -/
structure Sound (files : Files) (root : Program) (l : Loaded) : Prop where
  visited_nodup : (visited root l).Nodup
  visited_subset : visited root l ⊆ l.seen
  visited_of_seen : ∀ name ∈ l.seen, name ∈ visited root l ∨ programAt files root name = none
  programs : ∀ q ∈ l.imports, programAt files root q.name = some q
  fingerprints : l.fingerprints.map (·.1) = l.imports.map (·.name)

namespace Sound

lemma start (files : Files) (root : Program) : Sound files root { seen := [root.name] } where
  visited_nodup := nodup_singleton _
  visited_subset := List.Subset.refl _
  visited_of_seen _ h := .inl h
  programs _ h := nomatch h
  fingerprints := rfl

lemma reportMissing (hnone : programAt files root (resolve p.name path.node) = none)
    (h : Sound files root l) : Sound files root (l.reportMissing p path) where
  visited_nodup := h.visited_nodup
  visited_subset _ hx := .tail _ (h.visited_subset hx)
  visited_of_seen := forall_mem_cons.2 ⟨.inr hnone, h.visited_of_seen⟩
  programs := h.programs
  fingerprints := h.fingerprints

lemma read (hnew : q.name ∉ l.seen) (hq : programAt files root q.name = some q) (h : Sound files root l) :
    Sound files root (l.read q text) where
  visited_nodup := by
    rw [visited_read]
    refine nodup_append.2 ⟨h.visited_nodup, nodup_singleton _, ?_⟩
    rintro a ha b hb rfl
    exact hnew (h.visited_subset (mem_singleton.1 hb ▸ ha))
  visited_subset _ hx := by
    rw [visited_read, mem_append, mem_singleton] at hx
    rcases hx with hx | rfl
    · exact .tail _ (h.visited_subset hx)
    · exact .head _
  visited_of_seen := by
    rw [visited_read]
    refine forall_mem_cons.2 ⟨by simp, fun x hx => ?_⟩
    exact (h.visited_of_seen x hx).imp_left fun hx => mem_append_left _ hx
  programs := forall_mem_append.2 ⟨h.programs, forall_mem_singleton.2 hq⟩
  fingerprints := by simp [Loaded.read, h.fingerprints]

end Sound

namespace Loads

lemma sound (h : Loads files chain p l paths l') (hchain : Chain files root chain p)
    (hpaths : paths ⊆ importPaths p) (hl : Sound files root l) : Sound files root l' :=
  h.keeps (fun _ _ _ hl => { hl with }) Sound.reportMissing Sound.read hchain hpaths hl

lemma preorder (h : Loads files chain p l paths l') (hchain : Chain files root chain p)
    (hpaths : paths ⊆ importPaths p) (hseen : chain ⊆ l.seen) (hl : Sound files root l) :
    Preorder (fun name => (programAt files root name).map imported) (visited root l)
      (paths.map fun path => resolve p.name path.node) (visited root l') := by
  have hpass : ∀ {l : Loaded} {name : String}, Sound files root l → name ∈ l.seen →
      name ∈ visited root l ∨ (programAt files root name).map imported = none := fun hl hname =>
    (hl.visited_of_seen _ hname).imp_right fun hnone => by rw [hnone]; rfl
  induction h with
  | nil => exact .nil
  | circular hback _ ih =>
    exact .pass (hpass hl (hseen hback)) (ih hchain (cons_subset.1 hpaths).2 hseen { hl with })
  | known _ hknown _ ih => exact .pass (hpass hl hknown) (ih hchain (cons_subset.1 hpaths).2 hseen hl)
  | missing hnew _ htext _ ih =>
    have hnone := programAt_of_missing (hchain.ne_root hnew) htext
    refine .pass (.inr (by rw [hnone]; rfl)) (ih hchain (cons_subset.1 hpaths).2 ?_ ?_)
    · exact fun x hx => .tail _ (hseen hx)
    · exact hl.reportMissing hnone
  | @read chain p q l between l' path paths text hnew hunseen hname htext hparsed inside _ ihInside ihRest =>
    obtain ⟨hpath, hpaths⟩ := cons_subset.1 hpaths
    have hlonger := hchain.snoc hpath hname hnew htext hparsed
    have hread : Sound files root (l.read q text) := hl.read hunseen hlonger.program
    have hlongerSeen : chain ++ [q.name] ⊆ (l.read q text).seen :=
      append_subset.2 ⟨fun x hx => .tail _ (hseen hx), cons_subset.2 ⟨mem_cons_self, nil_subset _⟩⟩
    have hbelow := ihInside hlonger (List.Subset.refl _) hlongerSeen hread
    rw [visited_read] at hbelow
    have hrest := ihRest hchain hpaths (fun x hx => inside.seen_subset (hlongerSeen (mem_append_left _ hx)))
      (inside.sound hlonger (List.Subset.refl _) hread)
    rw [map_cons, ← hname]
    exact .visit (fun hmem => hunseen (hl.visited_subset hmem)) (by rw [hlonger.program]; rfl) hbelow hrest

end Loads

/-! ### Imports that lead back -/

def Circular (l : Loaded) : Prop := ∃ d ∈ l.diagnostics, d.code = .circularImport

/-- Behind a chain of imports, a path that its last program imports leads back to the chain. -/
structure LeadsBack (files : Files) (root : Program) (chain : List String) (p : Program) (path : Name) : Prop where
  leads : Chain files root chain p
  declared : path ∈ importPaths p
  back : resolve p.name path.node ∈ chain

/-- What is reported about an import that leads back. -/
def backDiagnostic (chain : List String) (p : Program) (path : Name) : Diagnostic :=
  Problem.toDiagnostic ⟨.circularImport (chain ++ [resolve p.name path.node]), path.span⟩ p.name

lemma LeadsBack.cycle (h : LeadsBack files root chain p path) : ∃ a,
    Relation.ReflTransGen (Imports files root) root.name a ∧ Relation.TransGen (Imports files root) a a := by
  obtain ⟨front, hfront⟩ := List.getLast?_eq_some_iff.1 h.leads.ends
  obtain ⟨behind, hbehind⟩ := List.head?_eq_some_iff.1 h.leads.starts
  have hsteps := h.leads.steps
  refine ⟨resolve p.name path.node, ?_, ?_⟩
  · rw [hbehind] at hsteps
    exact IsCycle.leads_of_chain hsteps _ (hbehind ▸ h.back)
  · rw [hfront] at hsteps
    have hto := IsCycle.leads_to_end hsteps _ (hfront ▸ h.back)
    exact .tail' hto (h.leads.imports h.declared)

lemma Loads.leadsBack (h : Loads files chain p l paths l') (hchain : Chain files root chain p)
    (hpaths : paths ⊆ importPaths p) (hl : l.diagnostics = []) :
    ∀ d ∈ l'.diagnostics, d.code = .circularImport →
      ∃ chain q path, LeadsBack files root chain q path ∧ d = backDiagnostic chain q path := by
  refine h.keeps (P := fun l => ∀ d ∈ l.diagnostics, d.code = .circularImport →
    ∃ chain q path, LeadsBack files root chain q path ∧ d = backDiagnostic chain q path)
    (fun hchain hpath hback hl => forall_mem_append.2 ⟨hl, forall_mem_singleton.2 fun _ => ?_⟩)
    (fun _ hl => forall_mem_append.2 ⟨hl, forall_mem_singleton.2 nofun⟩) (fun _ _ hl => hl) hchain hpaths (by simp [hl])
  exact ⟨_, _, _, ⟨hchain, hpath, hback⟩, rfl⟩

/-- A load and a search for cycles have met the same names behind a chain, and if the search has met a cycle,
the load has reported one. -/
structure Mirrors (chain : List String) (l : Loaded) (s : Graph.Search) : Prop where
  seen : ∀ name, name ∈ l.seen ↔ name ∈ chain ∨ name ∈ s.done
  circular : s.cycles ≠ [] → l.Circular

lemma Loads.mirrors (h : Loads files chain p l paths l') (hchain : Chain files root chain p)
    (hpaths : paths ⊆ importPaths p) {s : Graph.Search} (hs : Mirrors chain l s) :
    ∃ t, (importGraph files root).Explores chain.reverse s
      (paths.map fun path => resolve p.name path.node) t ∧ Mirrors chain l' t := by
  induction h generalizing s with
  | nil => exact ⟨s, .nil, hs⟩
  | @circular chain p l l' path paths hback _ ih =>
    have hreported : (l.reportBack chain p path).Circular :=
      ⟨_, mem_append_right _ mem_cons_self, rfl⟩
    obtain ⟨t, hexplores, ht⟩ := @ih hchain (cons_subset.1 hpaths).2
      { s with cycles := s.cycles ++ [Graph.closeCycle chain.reverse (resolve p.name path.node)] }
      ⟨hs.seen, fun _ => hreported⟩
    exact ⟨t, .back (mem_reverse.2 hback) hexplores, ht⟩
  | known hnew hseen _ ih =>
    obtain ⟨t, hexplores, ht⟩ := ih hchain (cons_subset.1 hpaths).2 hs
    have hdone := ((hs.seen _).1 hseen).resolve_left hnew
    exact ⟨t, .known (fun hmem => hnew (mem_reverse.1 hmem)) hdone hexplores, ht⟩
  | @missing chain p l l' path paths hnew hunseen htext _ ih =>
    have hnone : (importGraph files root).next (resolve p.name path.node) = [] := by
      rw [next_importGraph, importsOf, programAt_of_missing (hchain.ne_root hnew) htext]
      rfl
    have hmirrors : Mirrors chain (l.reportMissing p path) { s with done := resolve p.name path.node :: s.done } := by
      refine ⟨fun name => ?_, fun hcycles => ?_⟩
      · simp only [reportMissing, report, mem_cons, hs.seen name]
        exact or_left_comm
      · obtain ⟨d, hd, hcode⟩ := hs.circular hcycles
        exact ⟨d, mem_append_left _ hd, hcode⟩
    obtain ⟨t, hexplores, ht⟩ := ih hchain (cons_subset.1 hpaths).2 hmirrors
    refine ⟨t, .enter (fun hmem => hnew (mem_reverse.1 hmem)) ?_ ?_ hexplores, ht⟩
    · exact fun hdone => hunseen ((hs.seen _).2 (.inr hdone))
    · rw [hnone]
      exact .nil
  | @read chain p q l between l' path paths text hnew hunseen hname htext hparsed inside _ ihInside ihRest =>
    obtain ⟨hpath, hpaths⟩ := cons_subset.1 hpaths
    have hlonger := hchain.snoc hpath hname hnew htext hparsed
    have hread : Mirrors (chain ++ [q.name]) (l.read q text) s := by
      refine ⟨fun name => ?_, hs.circular⟩
      simp only [Loaded.read, mem_cons, mem_append, not_mem_nil, or_false, hs.seen name, or_assoc]
      exact or_left_comm
    obtain ⟨u, hbelow, hu⟩ := ihInside hlonger (List.Subset.refl _) hread
    have hleft : Mirrors chain between { u with done := q.name :: u.done } := by
      refine ⟨fun name => ?_, hu.circular⟩
      simp only [hu.seen name, mem_cons, mem_append, not_mem_nil, or_false, or_assoc]
    obtain ⟨t, hrest, ht⟩ := ihRest hchain hpaths hleft
    refine ⟨t, ?_, ht⟩
    rw [map_cons, ← hname]
    refine .enter (fun hmem => hnew (mem_reverse.1 hmem)) ?_ ?_ hrest
    · exact fun hdone => hunseen ((hs.seen _).2 (.inr hdone))
    · rw [next_importGraph, importsOf_eq hlonger.program]
      simpa [imported] using hbelow

end Loaded

/-! ### Whole loads -/

namespace Program

open Loaded

variable {files : Files} {root : Program} {loaded : Loaded}

lemma loads_of_load (h : root.load files = .ok loaded) :
    Loads files [root.name] root { seen := [root.name] } (importPaths root) loaded :=
  loads_visit files _ _ root (Nat.lt_succ_of_le (length_filter_le _ _)) h

lemma explores_of_load (h : root.load files = .ok loaded) : ∃ t,
    (importGraph files root).Explores [] {} [root.name] t ∧ (∀ name, name ∈ loaded.seen ↔ name ∈ t.done) ∧
      (t.cycles ≠ [] → loaded.Circular) := by
  have hstart : Mirrors [root.name] { seen := [root.name] } {} := ⟨by simp, fun h => absurd rfl h⟩
  obtain ⟨t, hexplores, hseen, hcircular⟩ :=
    (loads_of_load h).mirrors (.start files root) (List.Subset.refl _) hstart
  have hnext : (importGraph files root).next root.name = imported root := by
    rw [next_importGraph, importsOf_eq programAt_root]
  refine ⟨_, .enter not_mem_nil not_mem_nil (hnext ▸ hexplores) .nil, fun name => ?_, hcircular⟩
  rw [hseen name, mem_singleton, mem_cons]

lemma mem_seen_of_load (h : root.load files = .ok loaded) {name : String} :
    name ∈ loaded.seen ↔ Relation.ReflTransGen (Imports files root) root.name name := by
  obtain ⟨t, hexplores, hseen, -⟩ := explores_of_load h
  rw [hseen, hexplores.mem_done_iff, edge_importGraph]
  simp

lemma circular_of_cycle (h : root.load files = .ok loaded)
    (ha : Relation.ReflTransGen (Imports files root) root.name a)
    (hcycle : Relation.TransGen (Imports files root) a a) : loaded.Circular := by
  obtain ⟨t, hexplores, hseen, hcircular⟩ := explores_of_load h
  rw [← edge_importGraph] at hcycle
  exact hcircular (hexplores.cycles_ne_nil ((hseen a).1 ((mem_seen_of_load h).2 ha)) hcycle)

/-- Loading goes through the graph of imports depth first, without a bound. The programs that it reads are those
of the names that the root leads to, once each and in preorder, and the files on record are theirs. An import is
reported as circular iff the root leads to a cycle, and each report shows a chain of imports from the root that
ends with a name that is on it before. -/
theorem load_depth_first (h : root.load files = .ok loaded) :
    Loads files [root.name] root { seen := [root.name] } (importPaths root) loaded ∧
    (∀ n, files.length < n → visit files n [root.name] { seen := [root.name] } root = .ok loaded) ∧
    (visited root loaded).Nodup ∧
    (∀ order, Preorder (fun name => (programAt files root name).map imported) [] [root.name] order ↔
      order = visited root loaded) ∧
    (∀ name, name ∈ visited root loaded ↔
      Relation.ReflTransGen (Imports files root) root.name name ∧ programAt files root name ≠ none) ∧
    (∀ q ∈ loaded.imports, programAt files root q.name = some q) ∧
    loaded.fingerprints.map (·.1) = loaded.imports.map (·.name) ∧
    (loaded.Circular ↔ ∃ a, Relation.ReflTransGen (Imports files root) root.name a ∧
      Relation.TransGen (Imports files root) a a) ∧
    ∀ d ∈ loaded.diagnostics, d.code = .circularImport → ∃ chain q path,
      LeadsBack files root chain q path ∧ d = backDiagnostic chain q path ∧
      d.message = "circular import: " ++ " -> ".intercalate (chain ++ [resolve q.name path.node]) := by
  have hloads := loads_of_load h
  have hpaths : importPaths root ⊆ importPaths root := List.Subset.refl _
  have hsound := hloads.sound (.start files root) hpaths (.start files root)
  have hback := hloads.leadsBack (.start files root) hpaths rfl
  have hpreorder : Preorder (fun name => (programAt files root name).map imported) [] [root.name]
      (visited root loaded) := by
    have hbelow := hloads.preorder (.start files root) hpaths (List.Subset.refl _) (.start files root)
    exact .visit not_mem_nil (by rw [programAt_root]; rfl) hbelow .nil
  refine ⟨hloads, fun n hn => ?_, hsound.visited_nodup, fun order => ⟨fun h => h.unique hpreorder, ?_⟩,
    fun name => ?_, hsound.programs, hsound.fingerprints, ⟨?_, ?_⟩, fun d hd hcode => ?_⟩
  · have hahead : (ahead files [root.name]).length ≤ files.length := length_filter_le _ _
    rw [← h, load]
    exact visit_bound files _ _ _ _ root (by omega) (by omega)
  · rintro rfl
    exact hpreorder
  · rw [← mem_seen_of_load h]
    constructor
    · intro hname
      refine ⟨hsound.visited_subset hname, ?_⟩
      rcases mem_cons.1 hname with rfl | hname
      · simp
      · obtain ⟨q, hq, rfl⟩ := mem_map.1 hname
        simp [hsound.programs q hq]
    · rintro ⟨hname, hsome⟩
      exact (hsound.visited_of_seen name hname).resolve_right hsome
  · rintro ⟨d, hd, hcode⟩
    obtain ⟨chain, q, path, hleads, -⟩ := hback d hd hcode
    exact hleads.cycle
  · rintro ⟨a, ha, hcycle⟩
    exact circular_of_cycle h ha hcycle
  · obtain ⟨chain, q, path, hleads, rfl⟩ := hback d hd hcode
    exact ⟨chain, q, path, hleads, rfl, rfl⟩

/-- Files that import one another, the root among them, and one that is not there. -/
def roundFiles : Files :=
  [("a.wv", "import \"b.wv\"\nimport \"gone.wv\"\n"), ("b.wv", "import \"main.wv\"\n")]

/-- The first import of the root reads both files, and the second finds its file read. -/
theorem load_depth_first_round : ∃ root loaded, ofSource "import \"a.wv\"\nimport \"b.wv\"\n" "main.wv" = .ok root ∧
    root.load roundFiles = .ok loaded ∧
    Preorder (fun name => (programAt roundFiles root name).map imported) [] [root.name] ["main.wv", "a.wv", "b.wv"] ∧
    loaded.fingerprints.map (·.1) = ["a.wv", "b.wv"] ∧
    loaded.diagnostics.map (·.message) = ["circular import: main.wv -> a.wv -> b.wv -> main.wv",
      "imported file 'gone.wv' not found"] ∧
    ∃ a, Relation.ReflTransGen (Imports roundFiles root) root.name a ∧
      Relation.TransGen (Imports roundFiles root) a a := by
  have hrun : (ofSource "import \"a.wv\"\nimport \"b.wv\"\n" "main.wv").toOption.any (fun root =>
      (root.load roundFiles).toOption.any fun loaded =>
        decide (visited root loaded = ["main.wv", "a.wv", "b.wv"])
        && decide (loaded.imports.map (·.name) = ["a.wv", "b.wv"])
        && decide (loaded.diagnostics.map (·.message) =
          ["circular import: main.wv -> a.wv -> b.wv -> main.wv", "imported file 'gone.wv' not found"])
        && loaded.diagnostics.any fun d => d.code = .circularImport) = true := by
    decide +kernel
  obtain ⟨root, hroot, hrun⟩ := Except.of_any hrun
  obtain ⟨loaded, hload, hrun⟩ := Except.of_any hrun
  simp only [Bool.and_eq_true, decide_eq_true_eq, any_eq_true] at hrun
  obtain ⟨⟨⟨hvisited, hnames⟩, hmessages⟩, hreported⟩ := hrun
  obtain ⟨-, -, -, hpreorder, -, -, hfingerprints, hcircular, -⟩ := load_depth_first hload
  exact ⟨root, loaded, hroot, hload, (hpreorder _).2 hvisited.symm, hfingerprints.trans hnames, hmessages,
    hcircular.1 hreported⟩

end Program

end Workflow
