import Workflow.Run.Arena
import Mathlib.Data.List.Forall2
import Mathlib.Data.List.Nodup
import Mathlib.Data.List.Pairwise
import Mathlib.Data.List.Perm.Subperm

/-!
Arenas of agents. Whatever the agents refer to, building ends: the agents on the way are all different, so
that there are never more of them than there are agents. The arena holds the tree of the agent in preorder,
and a teardown closes it in postorder.
-/

namespace Workflow

open List

variable {first p : Nat} {hs : List Hierarchy} {h : Hierarchy}

namespace Hierarchy

/-! ### The tree of an agent -/

/-- A tree below some agents, in which nothing is left out but references to agents that are not there or on the
way already. -/
inductive Full (agents : Table AgentSpec) : List String → Hierarchy → Prop
  | node {path : List String} {spec : AgentSpec} {delegates tools : List Hierarchy}
    (known : agents.get? spec.name = some spec) (nodup : (spec.name :: path).Nodup)
    (delegate : delegates.map name = spec.delegate.filter fun d => d ∉ spec.name :: path ∧ agents.contains d)
    (uses : tools.map name = spec.uses.filter fun t => t ∉ spec.name :: path ∧ agents.contains t)
    (below : ∀ h ∈ delegates ++ tools, Full agents (spec.name :: path) h) : Full agents path (node spec delegates tools)

@[simp] lemma name_unfold (agents : Table AgentSpec) (depth : Nat) (path : List String)
    (spec : AgentSpec) : (unfold agents depth path spec).name = spec.name := by
  cases depth <;> rfl

variable {agents : Table AgentSpec}

lemma map_name_filterMap (hkeyed : ∀ name spec, agents.get? name = some spec → spec.name = name)
    (depth : Nat) (path names : List String) :
    (names.filterMap fun name =>
        if path.contains name then none else (agents.get? name).map (unfold agents depth path)).map name =
      names.filter fun n => n ∉ path ∧ agents.contains n := by
  induction names with
  | nil => rfl
  | cons n rest ih =>
    rw [filterMap_cons, filter_cons, ← ih]
    by_cases hpath : n ∈ path
    · simp [hpath]
    cases hn : agents.get? n with
    | none => simp [Table.contains, hpath, hn]
    | some spec => simp [Table.contains, hpath, hn, hkeyed n spec hn]

lemma full_unfold (hkeyed : ∀ name spec, agents.get? name = some spec → spec.name = name) :
    ∀ (depth : Nat) {path} {spec : AgentSpec}, agents.get? spec.name = some spec →
      (spec.name :: path).Nodup → path ⊆ agents.names → agents.length ≤ depth + path.length →
      Full agents path (unfold agents depth path spec) := by
  intro depth
  induction depth with
  | zero =>
    intro path spec hspec hnodup hnames hdepth
    have hname : spec.name ∈ agents.names := mem_map.2 ⟨_, Table.mem_of_get? hspec, rfl⟩
    have hlength := (subperm_of_subset hnodup (cons_subset.2 ⟨hname, hnames⟩)).length_le
    rw [length_cons, Table.names, length_map] at hlength
    omega
  | succ depth ih =>
    intro path spec hspec hnodup hnames hdepth
    have hname : spec.name ∈ agents.names := mem_map.2 ⟨_, Table.mem_of_get? hspec, rfl⟩
    refine .node hspec hnodup (map_name_filterMap hkeyed depth _ _) (map_name_filterMap hkeyed depth _ _) ?_
    intro h hh
    rw [← filterMap_append, mem_filterMap] at hh
    obtain ⟨name, -, hh⟩ := hh
    split at hh
    · cases hh
    · next hnew =>
      obtain ⟨child, hchild, rfl⟩ := Option.map_eq_some_iff.1 hh
      obtain rfl := hkeyed name child hchild
      refine ih hchild (nodup_cons.2 ⟨by simpa using hnew, hnodup⟩) (cons_subset.2 ⟨hname, hnames⟩) ?_
      rw [length_cons]
      omega

/-! ### Places -/

/-- The agent at the top of a tree that is laid out from a place on. -/
def top (first : Nat) : Hierarchy → ArenaNode
  | node spec delegates tools =>
    { spec, delegates := places (first + 1) delegates, tools := places (first + 1 + sizes delegates) tools }

lemma size_node (spec : AgentSpec) (delegates tools : List Hierarchy) :
    (node spec delegates tools).size = sizes delegates + sizes tools + 1 := by
  rw [size]
  omega

lemma le_of_mem_places (h : i ∈ places first hs) : first ≤ i := by
  induction hs generalizing first with
  | nil => cases h
  | cons t rest ih =>
    rcases mem_cons.1 h with rfl | h
    · exact .refl
    · exact Nat.le_trans (Nat.le_add_right ..) (ih h)

mutual

@[simp] theorem length_layout (first : Nat) : ∀ h : Hierarchy, (h.layout first).length = h.size
  | node spec delegates tools => by
    simp [layout, size_node, length_layouts _ delegates, length_layouts _ tools]

@[simp] theorem length_layouts (first : Nat) : ∀ hs : List Hierarchy, (layouts first hs).length = sizes hs
  | [] => rfl
  | h :: rest => by simp [layouts, sizes, length_layout _ h, length_layouts _ rest]

end

mutual

theorem children_layout (first : Nat) : ∀ h : Hierarchy,
    (first :: (h.layout first).flatMap ArenaNode.children).Perm (List.range' first h.size)
  | node spec delegates tools => by
    have hbelow := (children_layouts (first + 1) delegates).append
      (children_layouts (first + 1 + sizes delegates) tools)
    rw [List.range'_append_1] at hbelow
    rw [layout, size_node, List.range'_succ, flatMap_cons, flatMap_append]
    refine (List.Perm.trans ?_ hbelow).cons first
    simp only [ArenaNode.children, append_assoc]
    exact (perm_append_comm_assoc ..).append_left _

theorem children_layouts (first : Nat) : ∀ hs : List Hierarchy,
    (places first hs ++ (layouts first hs).flatMap ArenaNode.children).Perm (List.range' first (sizes hs))
  | [] => .refl _
  | h :: rest => by
    rw [sizes, ← List.range'_append_1, layouts, flatMap_append]
    exact ((perm_append_comm_assoc ..).cons first).trans ((children_layout first h).append (children_layouts _ rest))

end

mutual

theorem lt_layout (first : Nat) : ∀ h : Hierarchy, ∀ x ∈ (h.layout first).zipIdx first, ∀ i ∈ x.1.children, x.2 < i
  | node spec delegates tools => by
    rw [layout, zipIdx_cons, zipIdx_append, length_layouts, forall_mem_cons, forall_mem_append]
    refine ⟨fun i hi => ?_, lt_layouts _ delegates, lt_layouts _ tools⟩
    rcases mem_append.1 hi with hi | hi
    · exact le_of_mem_places hi
    · exact Nat.le_trans (Nat.le_add_right ..) (le_of_mem_places hi)

theorem lt_layouts (first : Nat) : ∀ hs : List Hierarchy,
    ∀ x ∈ (layouts first hs).zipIdx first, ∀ i ∈ x.1.children, x.2 < i
  | [] => nofun
  | h :: rest => by
    rw [layouts, zipIdx_append, length_layout, forall_mem_append]
    exact ⟨lt_layout first h, lt_layouts _ rest⟩

end

end Hierarchy

namespace Arena

open Hierarchy

variable {agents : Table AgentSpec} {a : Arena}

/-! ### Building -/

lemma foldl_refer {add : Arena → AgentSpec → Arena × Nat}
    (hadd : ∀ a spec, add a spec = (a ++ (tree spec).layout a.length, a.length)) (names : List String) :
    ∀ (a : Arena) (ids : List Nat), names.foldl (refer agents path add) (a, ids) =
      let trees := names.filterMap fun name => if path.contains name then none else (agents.get? name).map tree
      (a ++ layouts a.length trees, ids ++ places a.length trees) := by
  induction names with
  | nil => simp [layouts, places]
  | cons name rest ih =>
    intro a ids
    rw [foldl_cons, filterMap_cons]
    by_cases hpath : path.contains name = true
    · rw [refer, if_pos hpath, if_pos hpath, ih]
    · rw [refer, if_neg hpath, if_neg hpath]
      cases agents.get? name with
      | none => rw [ih]; rfl
      | some spec => simp [hadd, ih, layouts, places, append_assoc]

lemma add_eq : ∀ (depth : Nat) (path : List String) (a : Arena) (spec : AgentSpec),
    add agents depth path a spec = (a ++ (unfold agents depth path spec).layout a.length, a.length)
  | 0, path, a, spec => by simp [add, unfold, layout, layouts, places]
  | depth + 1, path, a, spec => by
    have hadd := add_eq depth (spec.name :: path)
    simp only [add, foldl_refer hadd, unfold, layout]
    simp [Nat.add_assoc, Nat.add_comm 1]

def Laid (a : Arena) (first : Nat) (h : Hierarchy) : Prop := h.layout first <+: a.drop first

lemma prefix_behind {size : Nat} (h : x ++ y <+: a.drop first) (hx : x.length = size) :
    y <+: a.drop (first + size) := by
  obtain ⟨behind, h⟩ := h
  exact ⟨behind, by simp [← drop_drop, ← h, ← hx]⟩

lemma laid_places (h : layouts first hs <+: a.drop first) : List.Forall₂ a.Laid (places first hs) hs := by
  induction hs generalizing first with
  | nil => exact .nil
  | cons t rest ih =>
    exact .cons ((prefix_append ..).trans h) (ih (prefix_behind h (length_layout first t)))

lemma Laid.below {spec : AgentSpec} {delegates tools : List Hierarchy}
    (hlaid : a.Laid p (.node spec delegates tools)) :
    a[p]? = some ((node spec delegates tools).top p) ∧ List.Forall₂ a.Laid (places (p + 1) delegates) delegates ∧
      List.Forall₂ a.Laid (places (p + 1 + sizes delegates) tools) tools := by
  rw [Laid, layout] at hlaid
  have hbelow := prefix_behind (singleton_append ▸ hlaid) (length_singleton ..)
  refine ⟨?_, laid_places ((prefix_append ..).trans hbelow), laid_places (prefix_behind hbelow (length_layouts ..))⟩
  obtain ⟨behind, hbehind⟩ := hlaid
  rw [← Nat.add_zero p, ← List.getElem?_drop, ← hbehind]
  rfl

/-! ### Walks -/

/-- The places of a tree in an arena: the agents below a place, delegates before tools, and the place itself, in
front or behind. -/
inductive Walk (a : Arena) (visit : Nat → List Nat → List Nat) : Nat → List Nat → Prop
  | node {p : Nat} {n : ArenaNode} {delegates tools : List (List Nat)} (here : a[p]? = some n)
    (delegate : List.Forall₂ (Walk a visit) n.delegates delegates)
    (uses : List.Forall₂ (Walk a visit) n.tools tools) :
    Walk a visit p (visit p (delegates.flatten ++ tools.flatten))

def leavesFirst (p : Nat) (below : List Nat) : List Nat := below ++ [p]

end Arena

namespace Hierarchy

variable {visit : Nat → List Nat → List Nat}

mutual

/-- The places of a tree that is laid out from a place on, in some order. -/
def walk (visit : Nat → List Nat → List Nat) (first : Nat) : Hierarchy → List Nat
  | node _ delegates tools => visit first ((walks visit (first + 1) delegates).flatten ++
      (walks visit (first + 1 + sizes delegates) tools).flatten)

def walks (visit : Nat → List Nat → List Nat) (first : Nat) : List Hierarchy → List (List Nat)
  | [] => []
  | h :: rest => h.walk visit first :: walks visit (first + h.size) rest

end

/-- A relation that is kept where parts of a walk are joined. -/
structure Joins (visit : Nat → List Nat → List Nat) (R : List Nat → List Nat → Prop) : Prop where
  nil : R [] []
  append : ∀ {l l' m m'}, R l l' → R m m' → R (l ++ m) (l' ++ m')
  visit : ∀ {p l l'}, R l l' → R (visit p l) (p :: l')

variable {R : List Nat → List Nat → Prop}

mutual

theorem walk_related (hR : Joins visit R) (first : Nat) : ∀ h : Hierarchy,
    R (h.walk visit first) (List.range' first h.size)
  | node _ delegates tools => by
    rw [size_node, List.range'_succ, ← List.range'_append_1]
    exact hR.visit (hR.append (walks_related hR _ delegates) (walks_related hR _ tools))

theorem walks_related (hR : Joins visit R) (first : Nat) : ∀ hs : List Hierarchy,
    R (walks visit first hs).flatten (List.range' first (sizes hs))
  | [] => hR.nil
  | h :: rest => by
    rw [walks, sizes, flatten_cons, ← List.range'_append_1]
    exact hR.append (walk_related hR first h) (walks_related hR _ rest)

end

end Hierarchy

namespace Arena

open Hierarchy

variable {agents : Table AgentSpec} {a : Arena} {visit : Nat → List Nat → List Nat}

mutual

theorem walk_of_laid : ∀ (h : Hierarchy) {p}, a.Laid p h → a.Walk visit p (h.walk visit p)
  | node _ delegates tools, _, hlaid =>
    have hbelow := hlaid.below
    .node hbelow.1 (walks_of_laid delegates hbelow.2.1) (walks_of_laid tools hbelow.2.2)

theorem walks_of_laid : ∀ (hs : List Hierarchy) {first}, List.Forall₂ a.Laid (places first hs) hs →
    List.Forall₂ (a.Walk visit) (places first hs) (walks visit first hs)
  | [], _, _ => .nil
  | h :: rest, _, .cons hlaid hrest => .cons (walk_of_laid h hlaid) (walks_of_laid rest hrest)

end

/-! ### Closing -/

def isTool (a : Arena) (p : Nat) : Bool := a.any (·.tools.contains p)

/-- What is said when an agent is closed: that it is, and then that the tool is which it is used as. -/
def entries (a : Arena) (p : Nat) : List Closing :=
  match a[p]? with
  | some n => ⟨n.spec.name, false⟩ :: if a.isTool p then [⟨n.spec.name, true⟩] else []
  | none => []

lemma isTool_of_delegate (hunique : (a.flatMap ArenaNode.children).Nodup) (hn : n ∈ a) (hi : i ∈ n.delegates) :
    a.isTool i = false := by
  rw [nodup_flatMap] at hunique
  rw [isTool, any_eq_false]
  intro m hm htool
  rw [contains_iff_mem] at htool
  by_cases h : m = n
  · subst h
    exact disjoint_of_nodup_append (hunique.1 m hm) hi htool
  · have : Std.Symm (Function.onFun List.Disjoint ArenaNode.children) := ⟨fun _ _ hd _ hm hn => hd hn hm⟩
    exact hunique.2.forall hm hn h (mem_append_right _ htool) (mem_append_left _ hi)

mutual

theorem closings_eq (hunique : (a.flatMap ArenaNode.children).Nodup) : ∀ (h : Hierarchy) {p}, a.Laid p h →
    h.closings (a.isTool p) = (h.walk leavesFirst p).flatMap a.entries
  | node spec delegates tools, p, hlaid => by
    obtain ⟨hn, hdelegates, htools⟩ := hlaid.below
    have hmem := mem_of_getElem? hn
    have htool : ∀ i ∈ places (p + 1 + sizes delegates) tools, a.isTool i = true :=
      fun i hi => any_eq_true.2 ⟨_, hmem, by simpa [top] using hi⟩
    have hdelegate : ∀ i ∈ places (p + 1) delegates, a.isTool i = false :=
      fun i hi => isTool_of_delegate hunique hmem hi
    rw [closings, closingsOf_eq hunique delegates hdelegates hdelegate, closingsOf_eq hunique tools htools htool]
    simp [walk, leavesFirst, entries, hn, top]

theorem closingsOf_eq (hunique : (a.flatMap ArenaNode.children).Nodup) :
    ∀ (hs : List Hierarchy) {first}, List.Forall₂ a.Laid (places first hs) hs →
      (∀ i ∈ places first hs, a.isTool i = asTool) →
      closingsOf asTool hs = (walks leavesFirst first hs).flatten.flatMap a.entries
  | [], _, _, _ => rfl
  | h :: rest, first, .cons hlaid hrest, htool => by
    obtain ⟨hfirst, hothers⟩ := forall_mem_cons.1 htool
    rw [closingsOf, walks, ← hfirst, closings_eq hunique h hlaid, hfirst, closingsOf_eq hunique rest hrest hothers]
    simp

end

def shut (n : ArenaNode) : ArenaNode := { n with closed := true }

mutual

theorem close_layout : ∀ (h : Hierarchy) (depth : Nat) {first} (asTool : Bool) (before behind : Arena)
    (out : List Closing), before.length = first → h.size ≤ depth →
    close depth asTool (before ++ (h.layout first ++ behind), out) first =
      (before ++ ((h.layout first).map shut ++ behind), out ++ h.closings asTool)
  | node spec delegates tools, 0, first, asTool, before, behind, out, hfirst, hdepth => by
    simp [size_node] at hdepth
  | node spec delegates tools, depth + 1, first, asTool, before, behind, out, hfirst, hdepth => by
    rw [size_node] at hdepth
    let opened := before ++ [shut ((node spec delegates tools).top first)]
    have hopened : opened.length = first + 1 := by simp [opened, hfirst]
    have hdelegates := close_layouts delegates depth false opened
      (layouts (first + 1 + sizes delegates) tools ++ behind) out hopened (by omega)
    have htools := close_layouts tools depth true
      (opened ++ (layouts (first + 1) delegates).map shut) behind (out ++ closingsOf false delegates)
      (by rw [length_append, hopened, length_map, length_layouts]) (by omega)
    simp only [opened, top, shut, append_assoc, cons_append, nil_append] at hdelegates htools
    simp [close, layout, closings, hfirst, hdelegates, htools, shut]

theorem close_layouts : ∀ (hs : List Hierarchy) (depth : Nat) {first} (asTool : Bool) (before behind : Arena)
    (out : List Closing), before.length = first → sizes hs ≤ depth →
    (places first hs).foldl (close depth asTool) (before ++ (layouts first hs ++ behind), out) =
      (before ++ ((layouts first hs).map shut ++ behind), out ++ closingsOf asTool hs)
  | [], depth, first, asTool, before, behind, out, _, _ => by simp [places, layouts, closingsOf]
  | h :: rest, depth, first, asTool, before, behind, out, hfirst, hdepth => by
    rw [sizes] at hdepth
    have htree := close_layout h depth asTool before (layouts (first + h.size) rest ++ behind) out hfirst (by omega)
    have hrest := close_layouts rest depth asTool (before ++ (h.layout first).map shut) behind
      (out ++ h.closings asTool) (by rw [length_append, hfirst, length_map, length_layout]) (by omega)
    rw [append_assoc] at hrest
    simp [places, layouts, closingsOf, htree, hrest]

end

/-! ### Ways down -/

/-- The names of the agents above a place, the next one first. -/
inductive Above (a : Arena) : List String → Nat → Prop
  | top : Above a [] 0
  | child {path : List String} {p i : Nat} {n : ArenaNode} (way : Above a path p) (here : a[p]? = some n)
    (below : i ∈ n.children) : Above a (n.spec.name :: path) i

def name? (a : Arena) (p : Nat) : Option String := a[p]?.map (·.spec.name)

lemma exists_of_forall₂ {α β : Type} {R : α → β → Prop} {xs : List α} {ys : List β} (h : List.Forall₂ R xs ys)
    {x : α} (hx : x ∈ xs) : ∃ y ∈ ys, R x y := by
  induction h with
  | nil => cases hx
  | cons hr _ ih =>
    rcases mem_cons.1 hx with rfl | hx
    · exact ⟨_, .head _, hr⟩
    · obtain ⟨y, hy, hr⟩ := ih hx
      exact ⟨y, .tail _ hy, hr⟩

lemma Laid.name? (hlaid : a.Laid p h) : a.name? p = some h.name := by
  obtain ⟨spec, delegates, tools⟩ := h
  rw [Arena.name?, hlaid.below.1]
  rfl

lemma full_of_above (hlaid : a.Laid 0 h) (hfull : h.Full agents []) {path : List String} (hp : a.Above path p) :
    ∃ h, a.Laid p h ∧ h.Full agents path := by
  induction hp with
  | top => exact ⟨h, hlaid, hfull⟩
  | child _ here hi ih =>
    obtain ⟨t, hlaid, hfull⟩ := ih
    cases hfull with
    | node known fresh delegate uses hbelow =>
      obtain ⟨hn, hdelegates, htools⟩ := hlaid.below
      cases here.symm.trans hn
      rcases mem_append.1 hi with hi | hi
      · obtain ⟨t, ht, hlaid⟩ := exists_of_forall₂ hdelegates hi
        exact ⟨t, hlaid, hbelow t (mem_append_left _ ht)⟩
      · obtain ⟨t, ht, hlaid⟩ := exists_of_forall₂ htools hi
        exact ⟨t, hlaid, hbelow t (mem_append_right _ ht)⟩

/-- The arena of an agent: its tree in preorder. -/
structure IsTree (agents : Table AgentSpec) (root : String) (a : Arena) : Prop where
  root : a.name? 0 = some root
  preorder : a.Walk List.cons 0 (List.range a.length)
  /-- Every place but the first is below one agent, once. -/
  parents : (a.flatMap ArenaNode.children).Perm (List.range' 1 (a.length - 1))
  later : ∀ p (n : ArenaNode), a[p]? = some n → ∀ i ∈ n.children, p < i
  /-- On every way down the names are different, and only references to them or to no agent are left out. -/
  ways : ∀ path p, a.Above path p → ∃ n : ArenaNode, a[p]? = some n ∧ (n.spec.name :: path).Nodup ∧
    agents.get? n.spec.name = some n.spec ∧
    n.delegates.map a.name? = (n.spec.delegate.filter fun d => d ∉ n.spec.name :: path ∧ agents.contains d).map some ∧
    n.tools.map a.name? = (n.spec.uses.filter fun t => t ∉ n.spec.name :: path ∧ agents.contains t).map some

lemma Laid.names (h : List.Forall₂ a.Laid ids hs) : ids.map a.name? = (hs.map Hierarchy.name).map some := by
  induction h with
  | nil => rfl
  | cons hlaid _ ih => simp [hlaid.name?, ih]

lemma laid_layout (h : Hierarchy) : (h.layout 0).Laid 0 h := prefix_rfl

lemma isTree_layout (hfull : h.Full agents []) : IsTree agents h.name (h.layout 0) where
  root := (laid_layout h).name?
  preorder := by
    have hjoins : Joins List.cons Eq := ⟨rfl, fun hl hm => by rw [hl, hm], fun hl => by rw [hl]⟩
    rw [range_eq_range', length_layout, ← walk_related hjoins]
    exact walk_of_laid h (laid_layout h)
  parents := by
    have hperm := children_layout 0 h
    obtain ⟨spec, delegates, tools⟩ := h
    rw [length_layout, size_node, Nat.add_sub_cancel]
    rw [size_node, List.range'_succ] at hperm
    exact hperm.cons_inv
  later p n hn i hi :=
    lt_layout 0 h (n, p) (mk_mem_zipIdx_iff_getElem?.2 hn) i hi
  ways path p hp := by
    obtain ⟨t, hlaid, hfull⟩ := full_of_above (laid_layout h) hfull hp
    cases hfull with
    | node known nodup delegate uses _ =>
      obtain ⟨hn, hdelegates, htools⟩ := hlaid.below
      exact ⟨_, hn, nodup, known, (Laid.names hdelegates).trans (congrArg (List.map some) delegate),
        (Laid.names htools).trans (congrArg (List.map some) uses)⟩

lemma teardown_layout (h : Hierarchy) : (h.layout 0).teardown = (h.closings false, (h.layout 0).map shut) := by
  have hclose := close_layout h _ false [] [] [] rfl (Nat.le_of_eq (length_layout 0 h).symm)
  simp only [nil_append, append_nil, length_nil] at hclose
  rw [teardown, hclose]

lemma teardown_of_isClosed (h : a.isClosed = true) : a.teardown = ([], a) := by
  cases a with
  | nil => cases h
  | cons n rest =>
    have hclosed : n.closed = true := h
    simp [teardown, close, hclosed]

lemma isClosed_shut (h : Hierarchy) : isClosed ((h.layout 0).map shut) = true := by
  obtain ⟨spec, delegates, tools⟩ := h
  rw [layout]
  rfl

/-- Building an arena ends for every agent that is there, and the arena is the tree of the agent in preorder. A
teardown goes through it in postorder and says for each agent once that it is closed, and for each tool right
behind it that the tool is. A second teardown has nothing to say. -/
theorem built_and_torn_down (hkeyed : ∀ name spec, agents.get? name = some spec → spec.name = name) {root : String}
    (hroot : agents.contains root = true) :
    ∃ (a : Arena) (order : List Nat), build? agents root = some a ∧ a.IsTree agents root ∧
      a.Walk leavesFirst 0 order ∧ order.Perm (List.range a.length) ∧
      a.teardown.1 = order.flatMap a.entries ∧ a.teardown.2.teardown.1 = [] := by
  obtain ⟨spec, hspec⟩ := Option.isSome_iff_exists.1 hroot
  obtain rfl := hkeyed root spec hspec
  let h := unfold agents agents.length [] spec
  have hfull : h.Full agents [] :=
    full_unfold hkeyed _ hspec (nodup_singleton _) (nil_subset _) .refl
  have htree := isTree_layout hfull
  have hlaid := laid_layout h
  refine ⟨h.layout 0, h.walk leavesFirst 0, ?_, ?_, walk_of_laid h hlaid, ?_, ?_, ?_⟩
  · simp [build?, hspec, add_eq, h]
  · rwa [name_unfold] at htree
  · rw [length_layout, range_eq_range']
    have hjoins : Joins leavesFirst List.Perm :=
      ⟨.refl _, .append, fun hl => (perm_append_singleton ..).trans (hl.cons _)⟩
    exact walk_related hjoins 0 h
  · have hunique : ((h.layout 0).flatMap ArenaNode.children).Nodup :=
      htree.parents.nodup_iff.2 nodup_range'
    have htop : (h.layout 0).isTool 0 = false := by
      by_contra htool
      obtain ⟨n, hn, hcontains⟩ := any_eq_true.1 (Bool.not_eq_false _ ▸ htool)
      have hzero := htree.parents.subset (mem_flatMap.2 ⟨n, hn, mem_append_right _ (contains_iff_mem.1 hcontains)⟩)
      simp [mem_range'_1] at hzero
    rw [teardown_layout, ← htop]
    exact closings_eq hunique h hlaid
  · rw [teardown_layout, teardown_of_isClosed (isClosed_shut h)]

/-- An agent that refers to itself, to no agent, and to two agents which refer to each other and back to it. -/
def circleSample : Table AgentSpec :=
  [("critic", { name := "critic", instruction := "p", uses := ["writer", "lead"] }),
   ("lead", { name := "lead", instruction := "p", delegate := ["writer", "lead", "ghost"], uses := ["critic"] }),
   ("writer", { name := "writer", instruction := "p", delegate := ["lead"], uses := ["critic"] })]

theorem built_and_torn_down_circle : (∀ name spec, circleSample.get? name = some spec → spec.name = name) ∧
    circleSample.contains "lead" = true ∧
    (∃ (a : Arena) (order : List Nat), build? circleSample "lead" = some a ∧ a.IsTree circleSample "lead" ∧
      a.Walk leavesFirst 0 order ∧ order.Perm (List.range a.length) ∧
      a.teardown.1 = order.flatMap a.entries ∧ a.teardown.2.teardown.1 = []) ∧
    (build? circleSample "lead").map (fun a => a.teardown.1) =
      some [⟨"critic", false⟩, ⟨"critic", true⟩, ⟨"writer", false⟩, ⟨"writer", false⟩, ⟨"writer", true⟩,
        ⟨"critic", false⟩, ⟨"critic", true⟩, ⟨"lead", false⟩] := by
  have hkeyed : ∀ name spec, circleSample.get? name = some spec → spec.name = name := by
    intro name spec h
    have hmem := Table.mem_of_get? h
    simp only [circleSample, mem_cons, Prod.mk.injEq, not_mem_nil, or_false] at hmem
    rcases hmem with ⟨rfl, rfl⟩ | ⟨rfl, rfl⟩ | ⟨rfl, rfl⟩ <;> rfl
  exact ⟨hkeyed, by decide, built_and_torn_down hkeyed (by decide), by decide⟩

end Arena

end Workflow
