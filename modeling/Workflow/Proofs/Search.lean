import Mathlib.Data.List.Chain
import Mathlib.Data.List.Nodup
import Mathlib.Data.List.Perm.Subperm
import Mathlib.Logic.Relation
import Workflow.Graph

/-!
The search for cycles. `Graph.Explores` tells the search with no bound on its depth, and the bounded search
follows its rules, since a path never becomes as long as the bound. What is reported is a cycle, because the
path is a walk without repetition. For the converse, take names of which each leads to all others: all of them
are left behind before the one that is entered first, and each of them that has an edge to it meets it on the
path.
-/

namespace Workflow

open List Relation

variable {a name : String} {roots : List String}

/-- A walk along a relation that ends where it starts, and comes to no other name twice. -/
structure IsCycle (r : String → String → Prop) (walk : List String) : Prop where
  steps : walk.IsChain r
  closed : ∃ start between, walk = start :: between ++ [start] ∧ (start :: between).Nodup

def Tied (r : String → String → Prop) (a b : String) : Prop :=
  ReflTransGen r a b ∧ ReflTransGen r b a

namespace Tied

variable {r : String → String → Prop} {b c : String}

lemma refl (a : String) : Tied r a a := ⟨.refl, .refl⟩

lemma symm (h : Tied r a b) : Tied r b a := ⟨h.2, h.1⟩

lemma trans (h : Tied r a b) (h' : Tied r b c) : Tied r a c := ⟨h.1.trans h'.1, h'.2.trans h.2⟩

end Tied

namespace IsCycle

variable {r : String → String → Prop} {walk : List String}

lemma leads_of_chain : ∀ {start walk}, (start :: walk).IsChain r →
    ∀ x ∈ start :: walk, ReflTransGen r start x
  | start, [], _, x, hx => by
    obtain rfl := mem_singleton.1 hx
    exact .refl
  | start, next :: walk, h, x, hx => by
    obtain ⟨hstep, hrest⟩ := isChain_cons_cons.1 h
    rcases mem_cons.1 hx with rfl | hx
    · exact .refl
    · exact .head hstep (leads_of_chain hrest x hx)

lemma leads_to_end : ∀ {walk stop}, (walk ++ [stop]).IsChain r → ∀ x ∈ walk ++ [stop], ReflTransGen r x stop
  | [], stop, _, x, hx => by
    obtain rfl := mem_singleton.1 hx
    exact .refl
  | first :: walk, stop, h, x, hx => by
    have hrest : (walk ++ [stop]).IsChain r := h.tail
    rcases mem_cons.1 hx with rfl | hx
    · exact leads_of_chain h stop (by simp)
    · exact leads_to_end hrest x hx

lemma tied (h : IsCycle r walk) (hx : x ∈ walk) (hy : y ∈ walk) : Tied r x y := by
  obtain ⟨start, between, rfl, -⟩ := h.closed
  have hstart : ∀ z ∈ start :: between ++ [start], Tied r start z := fun z hz =>
    ⟨leads_of_chain h.steps z hz, leads_to_end h.steps z hz⟩
  exact (hstart x hx).symm.trans (hstart y hy)

lemma transGen (h : IsCycle r walk) : ∃ a, TransGen r a a := by
  obtain ⟨start, between, rfl, -⟩ := h.closed
  cases between with
  | nil => exact ⟨start, .single (isChain_cons_cons.1 h.steps).1⟩
  | cons next between =>
    obtain ⟨hstep, hrest⟩ := isChain_cons_cons.1 h.steps
    have hback : ReflTransGen r next start :=
      @leads_to_end r (next :: between) start hrest next (by simp)
    exact ⟨start, .head' hstep hback⟩

end IsCycle

namespace Graph

variable {g : Graph} {path names : List String} {s t u : Search} {first : String}

def Edge (g : Graph) (a b : String) : Prop := (a, b) ∈ g.edges

@[simp] lemma mem_next : b ∈ g.next a ↔ g.Edge a b := by
  simp [next, Edge]

/-! ### The search without a bound -/

/-- The search behind a path, whose last name comes first, of the names ahead of it. -/
inductive Explores (g : Graph) : List String → Search → List String → Search → Prop where
  | nil {path : List String} {s : Search} : Explores g path s [] s
  /-- An edge back to the path closes a cycle. -/
  | back {path names : List String} {s t : Search} {name : String} (onPath : name ∈ path)
      (rest : Explores g path { s with cycles := s.cycles ++ [closeCycle path name] } names t) :
      Explores g path s (name :: names) t
  /-- A name that has been left behind is not entered again. -/
  | known {path names : List String} {s t : Search} {name : String} (offPath : name ∉ path)
      (done : name ∈ s.done) (rest : Explores g path s names t) :
      Explores g path s (name :: names) t
  /-- A new name is entered, and left behind when all names ahead of it have been explored. -/
  | enter {path names : List String} {s u t : Search} {name : String} (offPath : name ∉ path)
      (new : name ∉ s.done) (inside : Explores g (name :: path) s (g.next name) u)
      (rest : Explores g path { u with done := name :: u.done } names t) :
      Explores g path s (name :: names) t

/-- A path is a walk without repetition, and edges lead from its last name to the names ahead. -/
structure Ahead (g : Graph) (path names : List String) : Prop where
  nodup : path.Nodup
  walk : path.IsChain fun a b => g.Edge b a
  leads : ∀ last ∈ path.head?, ∀ name ∈ names, g.Edge last name

namespace Ahead

lemma nil (names : List String) : g.Ahead [] names := ⟨nodup_nil, .nil, by simp⟩

lemma tail (h : g.Ahead path (name :: names)) : g.Ahead path names :=
  ⟨h.nodup, h.walk, fun last hlast other hother => h.leads last hlast other (by simp [hother])⟩

lemma enter (h : g.Ahead path (name :: names)) (hname : name ∉ path) : g.Ahead (name :: path) (g.next name) := by
  refine ⟨nodup_cons.2 ⟨hname, h.nodup⟩, ?_, ?_⟩
  · refine isChain_cons.2 ⟨fun last hlast => ?_, h.walk⟩
    exact h.leads last hlast name (by simp)
  · intro last hlast other hother
    obtain rfl : name = last := by simpa using hlast
    exact mem_next.1 hother

lemma dropLast_subset : ∀ {path : List String}, path.IsChain (fun a b => g.Edge b a) →
    path.dropLast ⊆ g.edges.map (·.2)
  | [], _ => by simp
  | [_], _ => by simp
  | a :: b :: path, h => by
    obtain ⟨hstep, hrest⟩ := isChain_cons_cons.1 h
    rw [dropLast_cons_cons, cons_subset]
    exact ⟨mem_map.2 ⟨(b, a), hstep, rfl⟩, dropLast_subset hrest⟩

lemma length_le (h : g.Ahead path names) : path.length ≤ g.edges.length + 1 := by
  have hnodup : path.dropLast.Nodup := h.nodup.sublist (dropLast_sublist path)
  have hle := (subperm_of_subset hnodup (dropLast_subset h.walk)).length_le
  rw [length_dropLast, length_map] at hle
  omega

end Ahead

/-- What the bounded search does about a name ahead. -/
def visit (g : Graph) (n : Nat) (path : List String) (s : Search) (name : String) : Search :=
  if path.contains name then { s with cycles := s.cycles ++ [closeCycle path name] }
  else if s.done.contains name then s
  else g.explore n path s name

lemma explore_succ (n : Nat) (path : List String) (s : Search) (name : String) : g.explore (n + 1) path s name =
      let u := (g.next name).foldl (g.visit n (name :: path)) s
      { u with done := name :: u.done } := rfl

lemma cycles_eq (g : Graph) (roots : List String) :
    g.cycles roots = (roots.foldl (g.visit (g.edges.length + 1) []) {}).cycles := rfl

lemma explores_foldl (n : Nat) : ∀ (names : List String) {path s},
    g.Ahead path names → g.edges.length < n + path.length →
    g.Explores path s names (names.foldl (g.visit n path) s) := by
  induction n using Nat.strong_induction_on with
  | _ n ih =>
    intro names
    induction names with
    | nil => exact fun _ _ => .nil
    | cons name names ihNames =>
      intro path s hahead hbound
      rw [foldl_cons]
      have hrest := fun s => ihNames (s := s) hahead.tail hbound
      by_cases hpath : name ∈ path
      · have hvisit : g.visit n path s name =
            { s with cycles := s.cycles ++ [closeCycle path name] } := by simp [visit, hpath]
        rw [hvisit]
        exact .back hpath (hrest _)
      · by_cases hdone : name ∈ s.done
        · have hvisit : g.visit n path s name = s := by simp [visit, hpath, hdone]
          rw [hvisit]
          exact .known hpath hdone (hrest s)
        · have hvisit : g.visit n path s name = g.explore n path s name := by
            simp [visit, hpath, hdone]
          rw [hvisit]
          have henter := hahead.enter hpath
          have hlength : path.length + 1 ≤ g.edges.length + 1 := henter.length_le
          obtain ⟨m, rfl⟩ : ∃ m, n = m + 1 := ⟨n - 1, by omega⟩
          rw [explore_succ]
          have hinside := ih m (by omega) (g.next name) (s := s) henter (by rw [length_cons]; omega)
          exact .enter hpath hdone hinside (hrest _)

lemma explores_cycles (g : Graph) (roots : List String) : ∃ t, g.Explores [] {} roots t ∧ t.cycles = g.cycles roots :=
  ⟨_, explores_foldl _ roots (.nil roots) (by simp), (cycles_eq g roots).symm⟩

/-! ### What is reported is a cycle -/

/-- The part of a path that an edge back closes starts with the name it leads to, and ends with the last name of
the path. -/
lemma closeCycle_eq (h : name ∈ path) : ∃ before between,
    path.reverse = before ++ name :: between ∧ closeCycle path name = name :: between ++ [name] := by
  obtain ⟨before, between, hsplit, hbefore⟩ :=
    eq_append_cons_of_mem (mem_reverse.2 h)
  refine ⟨before, between, hsplit, ?_⟩
  have hskip : ∀ x ∈ before, decide (x ≠ name) = true := by
    intro x hx
    exact decide_eq_true fun heq => hbefore (heq ▸ hx)
  rw [closeCycle, hsplit, dropWhile_append_of_pos hskip]
  simp

lemma Ahead.isCycle (h : g.Ahead path (name :: names)) (hname : name ∈ path) :
    IsCycle g.Edge (closeCycle path name) := by
  obtain ⟨before, between, hsplit, hclose⟩ := closeCycle_eq hname
  have hwalk : (before ++ name :: between).IsChain g.Edge := by
    rw [← hsplit]
    exact isChain_reverse.2 h.walk
  have hnodup : (before ++ name :: between).Nodup := by
    rw [← hsplit]
    exact nodup_reverse.2 h.nodup
  have hlast : ∀ last ∈ (name :: between).getLast?, g.Edge last name := by
    intro last hlast
    refine h.leads last ?_ name (by simp)
    rw [← List.getLast?_reverse, hsplit, List.getLast?_append]
    simp [Option.mem_def.1 hlast]
  rw [hclose]
  refine ⟨?_, name, between, rfl, (nodup_append.1 hnodup).2.1⟩
  refine isChain_append.2 ⟨(isChain_append.1 hwalk).2.1, .singleton name, ?_⟩
  intro last hmem first hfirst
  obtain rfl : name = first := by simpa using hfirst
  exact hlast last hmem

lemma Explores.isCycle (h : g.Explores path s names t) (hahead : g.Ahead path names)
    (hs : ∀ c ∈ s.cycles, IsCycle g.Edge c) : ∀ c ∈ t.cycles, IsCycle g.Edge c := by
  induction h with
  | nil => exact hs
  | back onPath rest ih =>
    exact ih hahead.tail (forall_mem_append.2 ⟨hs, forall_mem_singleton.2 (hahead.isCycle onPath)⟩)
  | known offPath done rest ih => exact ih hahead.tail hs
  | enter offPath new inside rest ihInside ihRest =>
    exact ihRest hahead.tail (ihInside (hahead.enter offPath) hs)

/-! ### What the search leaves behind -/

namespace Explores

section

variable (h : g.Explores path s names t)

include h

lemma unique (h' : g.Explores path s names u) : t = u := by
  induction h generalizing u with
  | nil =>
    cases h'
    rfl
  | back onPath rest ih =>
    cases h' with
    | back _ rest' => exact ih rest'
    | known offPath | enter offPath => exact absurd onPath offPath
  | known offPath done rest ih =>
    cases h' with
    | back onPath => exact absurd onPath offPath
    | known _ _ rest' => exact ih rest'
    | enter _ new => exact absurd done new
  | enter offPath new inside rest ihInside ihRest =>
    cases h' with
    | back onPath => exact absurd onPath offPath
    | known _ done => exact absurd done new
    | enter _ _ inside' rest' =>
      obtain rfl := ihInside inside'
      exact ihRest rest'

lemma done_subset : s.done ⊆ t.done := by
  induction h with
  | nil => exact List.Subset.refl _
  | back _ _ ih | known _ _ _ ih => exact ih
  | enter _ _ _ _ ihInside ihRest => exact fun _ hx => ihRest (.tail _ (ihInside hx))

lemma cycles_subset : s.cycles ⊆ t.cycles := by
  induction h with
  | nil => exact List.Subset.refl _
  | back _ _ ih => exact fun _ hx => ih (mem_append_left _ hx)
  | known _ _ _ ih => exact ih
  | enter _ _ _ _ ihInside ihRest => exact fun _ hx => ihRest (ihInside hx)

lemma covers : ∀ name ∈ names, name ∈ path ∨ name ∈ t.done := by
  induction h with
  | nil => simp
  | back onPath _ ih => exact forall_mem_cons.2 ⟨.inl onPath, ih⟩
  | known _ done rest ih => exact forall_mem_cons.2 ⟨.inr (rest.done_subset done), ih⟩
  | enter _ _ _ rest _ ih => exact forall_mem_cons.2 ⟨.inr (rest.done_subset mem_cons_self), ih⟩

lemma reached : ∀ d ∈ t.done, d ∈ s.done ∨ ∃ name ∈ names, ReflTransGen g.Edge name d := by
  induction h with
  | nil => exact fun d hd => .inl hd
  | back onPath rest ih | known offPath done rest ih =>
    intro d hd
    refine (ih d hd).imp_right fun ⟨name, hname, hreach⟩ => ?_
    exact ⟨name, .tail _ hname, hreach⟩
  | @enter path names s u t name offPath new inside rest ihInside ihRest =>
    intro d hd
    rcases ihRest d hd with hd | ⟨other, hother, hreach⟩
    · rcases mem_cons.1 hd with rfl | hd
      · exact .inr ⟨d, .head _, .refl⟩
      · refine (ihInside d hd).imp_right fun ⟨next, hnext, hreach⟩ => ?_
        exact ⟨name, .head _, .head (mem_next.1 hnext) hreach⟩
    · exact .inr ⟨other, .tail _ hother, hreach⟩

lemma closed : ∀ d ∈ t.done, d ∉ s.done → ∀ b, g.Edge d b → b ∈ path ∨ b ∈ t.done := by
  induction h with
  | nil => exact fun d hd hnew => absurd hd hnew
  | back onPath rest ih | known offPath done rest ih => exact ih
  | @enter path names s u t name offPath new inside rest ihInside ihRest =>
    intro d hd hnew b hb
    have hkeep : ∀ x, x ∈ name :: path ∨ x ∈ u.done → x ∈ path ∨ x ∈ t.done := by
      rintro x (hx | hx)
      · rcases mem_cons.1 hx with rfl | hx
        · exact Or.inr (rest.done_subset mem_cons_self)
        · exact .inl hx
      · exact .inr (rest.done_subset (.tail _ hx))
    by_cases hname : d = name
    · subst hname
      exact hkeep b (inside.covers b (mem_next.2 hb))
    · by_cases hinside : d ∈ u.done
      · exact hkeep b (ihInside d hinside hnew b hb)
      · exact ihRest d hd (by simp [hname, hinside]) b hb

lemma closeCycle_mem : ∀ name ∈ names, name ∈ path → closeCycle path name ∈ t.cycles := by
  induction h with
  | nil => simp
  | back _ rest ih =>
    exact forall_mem_cons.2 ⟨fun _ => rest.cycles_subset (mem_append_right _ (mem_singleton_self _)), ih⟩
  | known offPath _ _ ih | enter offPath _ _ _ _ ih =>
    exact forall_mem_cons.2 ⟨fun onPath => absurd onPath offPath, ih⟩

end

lemma mem_closeCycle (h : first ∈ name :: path) :
    name ∈ closeCycle (name :: path) first ∧ first ∈ closeCycle (name :: path) first := by
  obtain ⟨before, between, hsplit, hclose⟩ := closeCycle_eq h
  have hlast : (first :: between).getLast? = some name := by
    have hend := congrArg List.getLast? hsplit
    rw [List.getLast?_reverse, List.getLast?_append] at hend
    simpa [List.getLast?_cons] using hend.symm
  have hmem : name ∈ first :: between := mem_of_getLast? hlast
  rw [hclose]
  exact ⟨mem_append_left _ hmem, by simp⟩

lemma reports (h : g.Explores path s names t) : ∀ d ∈ t.done, d ∉ s.done → ∀ first ∈ path,
    g.Edge d first → ∃ c ∈ t.cycles, d ∈ c ∧ first ∈ c := by
  induction h with
  | nil => exact fun d hd hnew => absurd hd hnew
  | back onPath rest ih | known offPath done rest ih => exact ih
  | @enter path names s u t name offPath new inside rest ihInside ihRest =>
    intro d hd hnew first hfirst hedge
    have hpath : first ∈ name :: path := .tail _ hfirst
    by_cases hname : d = name
    · subst hname
      have hclose := inside.closeCycle_mem first (mem_next.2 hedge) hpath
      exact ⟨_, rest.cycles_subset hclose, mem_closeCycle hpath⟩
    · by_cases hinside : d ∈ u.done
      · obtain ⟨c, hc, hmem⟩ := ihInside d hinside hnew first hpath hedge
        exact ⟨c, rest.cycles_subset hc, hmem⟩
      · exact ihRest d hd (by simp [hname, hinside]) first hfirst hedge

/-! ### Tied names -/

/-- If a name is entered before all names that are tied to it, every edge from one of them to it is on a
reported cycle. -/
lemma reports_entered (inside : g.Explores (first :: path) s (g.next first) u)
    (hpath : ∀ x ∈ path, ¬ Tied g.Edge first x) (hdone : ∀ x ∈ s.done, ¬ Tied g.Edge first x) :
    ∀ x, Tied g.Edge first x → g.Edge x first → ∃ c ∈ u.cycles, x ∈ c ∧ first ∈ c := by
  -- a walk from the first name through tied names cannot leave what is left behind
  have hall : ∀ x, ReflTransGen g.Edge first x → ReflTransGen g.Edge x first →
      x = first ∨ x ∈ u.done := by
    intro x hto
    induction hto with
    | refl => exact fun _ => .inl rfl
    | @tail y z hy hstep ih =>
      intro hback
      have hz : Tied g.Edge first z := ⟨hy.tail hstep, hback⟩
      have hnext : z ∈ first :: path ∨ z ∈ u.done := by
        rcases ih (.head hstep hback) with rfl | hyu
        · exact inside.covers z (mem_next.2 hstep)
        · exact inside.closed y hyu (fun hys => hdone y hys ⟨hy, .head hstep hback⟩) z hstep
      rcases hnext with hnext | hnext
      · rcases mem_cons.1 hnext with rfl | hnext
        · exact .inl rfl
        · exact absurd hz (hpath z hnext)
      · exact .inr hnext
  intro x htied hedge
  rcases hall x htied.1 htied.2 with rfl | hx
  · exact ⟨_, inside.closeCycle_mem x (mem_next.2 hedge) mem_cons_self, mem_closeCycle mem_cons_self⟩
  · exact inside.reports x hx (fun hxs => hdone x hxs htied) first mem_cons_self hedge

/-- If a name is left behind, one of the names that are tied to it was entered first, and every edge from a tied
name to that one is on a reported cycle. -/
lemma reports_tied (h : g.Explores path s names t) (hpath : ∀ x ∈ path, ¬ Tied g.Edge a x)
    (hdone : ∀ x ∈ s.done, ¬ Tied g.Edge a x) (ha : ∃ x ∈ t.done, Tied g.Edge a x) :
    ∃ first, Tied g.Edge a first ∧ ∀ x, Tied g.Edge a x → g.Edge x first → ∃ c ∈ t.cycles, x ∈ c ∧ first ∈ c := by
  induction h with
  | nil =>
    obtain ⟨x, hx, htied⟩ := ha
    exact absurd htied (hdone x hx)
  | back onPath rest ih | known offPath done rest ih => exact ih hpath hdone ha
  | @enter path names s u t name offPath new inside rest ihInside ihRest =>
    by_cases hname : Tied g.Edge a name
    · refine ⟨name, hname, fun x hx hedge => ?_⟩
      obtain ⟨c, hc, hmem⟩ := inside.reports_entered (fun y hy htied => hpath y hy (hname.trans htied))
        (fun y hy htied => hdone y hy (hname.trans htied)) x (hname.symm.trans hx) hedge
      exact ⟨c, rest.cycles_subset hc, hmem⟩
    · have hpath' : ∀ x ∈ name :: path, ¬ Tied g.Edge a x := forall_mem_cons.2 ⟨hname, hpath⟩
      by_cases hinside : ∃ x ∈ u.done, Tied g.Edge a x
      · obtain ⟨first, htied, hreports⟩ := ihInside hpath' hdone hinside
        refine ⟨first, htied, fun x hx hedge => ?_⟩
        obtain ⟨c, hc, hmem⟩ := hreports x hx hedge
        exact ⟨c, rest.cycles_subset hc, hmem⟩
      · exact ihRest hpath (forall_mem_cons.2 ⟨hname, fun x hx htied => hinside ⟨x, hx, htied⟩⟩) ha

lemma cycles_ne_nil (h : g.Explores [] {} names t) (ha : a ∈ t.done) (hcycle : TransGen g.Edge a a) :
    t.cycles ≠ [] := by
  obtain ⟨first, htied, hreports⟩ := h.reports_tied (by simp) (by simp) ⟨a, ha, .refl a⟩
  -- the first name is reached from a tied one, by its own cycle
  have hfirst : TransGen g.Edge first first :=
    (TransGen.trans_right htied.2 hcycle).trans_left htied.1
  obtain ⟨x, hto, hlast⟩ := TransGen.tail'_iff.1 hfirst
  obtain ⟨c, hc, -⟩ := hreports x ⟨htied.1.trans hto, .head hlast htied.2⟩ hlast
  exact ne_nil_of_mem hc

lemma mem_done_iff (h : g.Explores [] {} names t) :
    a ∈ t.done ↔ ∃ name ∈ names, ReflTransGen g.Edge name a := by
  constructor
  · intro ha
    exact (h.reached a ha).resolve_left not_mem_nil
  · rintro ⟨name, hname, hreach⟩
    induction hreach with
    | refl => exact (h.covers name hname).resolve_left not_mem_nil
    | @tail b c _ hstep ih => exact (h.closed b ih not_mem_nil c hstep).resolve_left not_mem_nil

lemma of_append : ∀ {front back s t},
    g.Explores path s (front ++ back) t → ∃ u, g.Explores path s front u ∧ g.Explores path u back t
  | [], _, s, _, h => ⟨s, .nil, h⟩
  | _ :: _, _, _, _, .back onPath rest =>
    have ⟨u, hfront, hback⟩ := of_append rest
    ⟨u, .back onPath hfront, hback⟩
  | _ :: _, _, _, _, .known offPath done rest =>
    have ⟨u, hfront, hback⟩ := of_append rest
    ⟨u, .known offPath done hfront, hback⟩
  | _ :: _, _, _, _, .enter offPath new inside rest =>
    have ⟨u, hfront, hback⟩ := of_append rest
    ⟨u, .enter offPath new inside hfront, hback⟩

end Explores

/-! ### Cycles of a graph -/

lemma isCycle_of_mem (h : c ∈ g.cycles roots) : IsCycle g.Edge c := by
  obtain ⟨t, hexplores, hcycles⟩ := g.explores_cycles roots
  exact hexplores.isCycle (.nil roots) (by simp) c (hcycles ▸ h)

/-- Among the names that are tied to a root there is one such that every edge from them to it is on a reported
cycle. -/
lemma cycles_of_tied (ha : a ∈ roots) : ∃ first, Tied g.Edge a first ∧
      ∀ x, Tied g.Edge a x → g.Edge x first → ∃ c ∈ g.cycles roots, x ∈ c ∧ first ∈ c := by
  obtain ⟨t, hexplores, hcycles⟩ := g.explores_cycles roots
  rw [← hcycles]
  refine hexplores.reports_tied (by simp) (by simp) ⟨a, ?_, .refl a⟩
  exact (hexplores.covers a ha).resolve_left not_mem_nil

/-- If no root in front of a name leads to it, every edge from a tied name to it is on a cycle that is
told. -/
lemma cycles_of_first {front back : List String} (hfront : ∀ root ∈ front, ¬ ReflTransGen g.Edge root a) :
    ∀ x, Tied g.Edge a x → g.Edge x a → ∃ c ∈ g.cycles (front ++ a :: back), x ∈ c ∧ a ∈ c := by
  obtain ⟨t, hexplores, hcycles⟩ := g.explores_cycles (front ++ a :: back)
  rw [← hcycles]
  obtain ⟨u, hbefore, hbehind⟩ := hexplores.of_append
  have hdone : ∀ x ∈ u.done, ¬ Tied g.Edge a x := by
    intro x hx htied
    rcases hbefore.reached x hx with hx | ⟨root, hroot, hreach⟩
    · exact nomatch hx
    · exact hfront root hroot (hreach.trans htied.2)
  intro x htied hedge
  cases hbehind with
  | back onPath => exact nomatch onPath
  | known _ done => exact absurd (.refl a) (hdone a done)
  | enter _ _ inside rest =>
    obtain ⟨c, hc, hmem⟩ := inside.reports_entered (by simp) hdone x htied hedge
    exact ⟨c, rest.cycles_subset hc, hmem⟩

lemma cycles_eq_nil_iff (hroots : ∀ edge ∈ g.edges, edge.1 ∈ roots) :
    g.cycles roots = [] ↔ ¬ ∃ a, TransGen g.Edge a a := by
  constructor
  · rintro hnil ⟨a, hcycle⟩
    obtain ⟨b, hedge, -⟩ := TransGen.head'_iff.1 hcycle
    obtain ⟨t, hexplores, hcycles⟩ := g.explores_cycles roots
    have ha : a ∈ t.done := (hexplores.covers a (hroots (a, b) hedge)).resolve_left not_mem_nil
    exact hexplores.cycles_ne_nil ha hcycle (hcycles.trans hnil)
  · intro hacyclic
    refine eq_nil_iff_forall_not_mem.2 fun c hc => ?_
    exact hacyclic (isCycle_of_mem hc).transGen

end Graph

end Workflow
