import Mathlib.Data.List.Forall2
import Workflow.Grammar.Parse

/-!
Derivations of a grammar, said without any parser. A tree spells a symbol when it shows how the symbol derives
its tokens: below every node stand, in order, trees that spell the body of one rule of the node's phrase.
-/

namespace Workflow

mutual

/-- A symbol derives some tokens. -/
inductive Derives (rules : List Rule) : Symbol → List Token → Prop where
  | terminal {t} {token} (accepted : t.accepts token = true) : Derives rules (.terminal t) [token]
  | phrase {r} {tokens} (known : r ∈ rules) (body : DerivesAll rules r.body tokens) : Derives rules (.sub r.head) tokens

/-- Symbols derive some tokens, one after the other. -/
inductive DerivesAll (rules : List Rule) : List Symbol → List Token → Prop where
  | nil : DerivesAll rules [] []
  | cons {s} {rest} {u v} (first : Derives rules s u)
      (others : DerivesAll rules rest v) : DerivesAll rules (s :: rest) (u ++ v)

end

namespace Tree

mutual

def Spells (rules : List Rule) : Symbol → Tree → Prop
  | .terminal (.kind k), leaf token => (Terminal.kind k).accepts token = true
  | .terminal (.word text), keyword token => (Terminal.word text).accepts token = true
  | .sub phrase, node head children _ =>
    head = phrase ∧ ∃ r ∈ rules, r.head = phrase ∧ SpellsAll rules r.body children
  | _, _ => False

def SpellsAll (rules : List Rule) : List Symbol → List Tree → Prop
  | [], [] => True
  | s :: symbols, t :: trees => Spells rules s t ∧ SpellsAll rules symbols trees
  | _, _ => False

end

mutual

def Formed : Tree → Prop
  | leaf _ => True
  | keyword _ => True
  | node _ children span => span = spanOf children ∧ FormedAll children

/-- Every node of some trees spans what is below it. -/
def FormedAll : List Tree → Prop
  | [] => True
  | t :: rest => t.Formed ∧ FormedAll rest

end

/-- A tree is a derivation of tokens from a phrase. -/
structure IsDerivation (rules : List Rule) (phrase : Nonterminal) (tokens : List Token) (t : Tree) : Prop where
  spells : t.Spells rules (.sub phrase)
  formed : t.Formed
  tokens : t.tokens = tokens

variable {rules : List Rule}

lemma formedAll_iff : FormedAll trees ↔ ∀ t ∈ trees, t.Formed := by
  induction trees with
  | nil => simp [FormedAll]
  | cons t trees ih => simp [FormedAll, ih]

lemma formed_leaf (t : Terminal) (token : Token) : (t.leaf token).Formed := by
  cases t <;> trivial

lemma formed_form (h : ∀ t ∈ children, t.Formed) : (form head children).Formed :=
  ⟨rfl, formedAll_iff.2 h⟩

lemma spells_leaf {t : Terminal} (h : t.accepts token = true) : Spells rules (.terminal t) (t.leaf token) := by
  cases t <;> simpa [Terminal.leaf, Spells] using h

@[simp] lemma tokens_leaf (t : Terminal) (token : Token) : (t.leaf token).tokens = [token] := by
  cases t <;> rfl

@[simp] lemma tokens_form (head : Nonterminal) (children : List Tree) :
    (form head children).tokens = tokensOf children := rfl

lemma tokensOf_concat : ∀ (trees : List Tree) (t : Tree), tokensOf (trees ++ [t]) = tokensOf trees ++ t.tokens
  | [], t => by simp [tokensOf]
  | u :: rest, t => by simp [tokensOf, tokensOf_concat rest t, List.append_assoc]

lemma spells_form (known : r ∈ rules) (body : SpellsAll rules r.body children) :
    Spells rules (.sub r.head) (form r.head children) :=
  ⟨rfl, r, known, rfl, body⟩

lemma spells_terminal {tree : Tree} : tree.Spells rules (.terminal t) ↔
    ∃ token, tree = t.leaf token ∧ t.accepts token = true := by
  cases t <;> cases tree <;> simp [Spells, Terminal.leaf]

lemma spellsAll_iff : ∀ {symbols trees},
    SpellsAll rules symbols trees ↔ List.Forall₂ (fun s t => Spells rules s t) symbols trees
  | [], [] | [], _ :: _ | _ :: _, [] => by simp [SpellsAll]
  | _ :: _, _ :: _ => by simp [SpellsAll, spellsAll_iff]

lemma spellsAll_concat (h : SpellsAll rules symbols trees) (ht : Spells rules s t) :
    SpellsAll rules (symbols ++ [s]) (trees ++ [t]) :=
  spellsAll_iff.2 (List.rel_append (spellsAll_iff.1 h) (.cons ht .nil))

lemma Spells.induction {motive : Symbol → Tree → Prop}
    (terminal : ∀ {t token}, t.accepts token = true → motive (.terminal t) (t.leaf token)) (phrase : ∀ {r children
      span}, r ∈ rules → List.Forall₂ motive r.body children → motive (.sub r.head) (.node r.head children span)) :
    ∀ {s} (t : Tree), Spells rules s t → motive s t
  | .terminal _, _, h => by
    obtain ⟨token, rfl, accepted⟩ := spells_terminal.1 h
    exact terminal accepted
  | .sub _, node _ children _, h => by
    obtain ⟨rfl, r, known, rfl, body⟩ := h
    exact phrase known (below children body)
where
  below : ∀ {symbols : List Symbol} (trees : List Tree), SpellsAll rules symbols trees →
      List.Forall₂ motive symbols trees
    | [], [], _ => .nil
    | _ :: _, t :: rest, ⟨h, hrest⟩ => .cons (Spells.induction terminal phrase t h) (below rest hrest)

lemma derivesAll_of_forall₂ (h : List.Forall₂ (fun s t => Derives rules s t.tokens) symbols trees) :
    DerivesAll rules symbols (tokensOf trees) := by
  induction h with
  | nil => exact .nil
  | cons first _ ih => exact .cons first ih

lemma derives_of_spells (t : Tree) (h : Spells rules s t) : Derives rules s t.tokens := by
  refine Spells.induction (motive := fun s t => Derives rules s t.tokens) ?_ ?_ t h
  · exact fun accepted => tokens_leaf _ _ ▸ .terminal accepted
  · exact fun known body => .phrase known (derivesAll_of_forall₂ body)

end Tree

section

variable {rules : List Rule}

mutual

theorem Derives.ne_nil (nonempty : ∀ r ∈ rules, r.body ≠ []) : ∀ {s u}, Derives rules s u → u ≠ []
  | _, _, .terminal _ => List.cons_ne_nil _ _
  | _, _, .phrase known body => body.ne_nil nonempty (nonempty _ known)

theorem DerivesAll.ne_nil (nonempty : ∀ r ∈ rules, r.body ≠ []) :
    ∀ {symbols u}, DerivesAll rules symbols u → symbols ≠ [] → u ≠ []
  | _, _, .nil, h => absurd rfl h
  | _, _, .cons first _, _ => fun h =>
    first.ne_nil nonempty (List.append_eq_nil_iff.1 h).1

end

end

end Workflow
