import Workflow.Proofs.Blocks
import Workflow.Value.Eval

/-!
Operands that are not looked at. `Term.strict` evaluates both operands of every operator. It comes to the value
of the term whenever it comes to a value, and errors differ only where an operand of `and` or `or` is skipped.
-/

namespace Workflow.Term

mutual

def strict (b : Bindings) : Term → Except ValueError Json
  | literal value => .ok value
  | var name => b.get name
  | path name keys => b.getPath name keys
  | list items => do .ok (.arr (← strictItems b items))
  | map entries => do .ok (.obj (Table.ofList (← strictEntries b entries)))
  | binary op left right => do
    let x ← strict b left
    let y ← strict b right
    op.apply x y
  | not operand => do .ok (.bool (!(← strict b operand).truthy))
  | filter source keys op value => do
    match ← strict b source with
    | .arr items =>
      let wanted ← strict b value
      .ok (.arr (← keep keys op wanted items))
    | other => .error (.typeMismatch source.display "a list" other.typeName)

def strictItems (b : Bindings) : List Term → Except ValueError (List Json)
  | [] => .ok []
  | t :: rest => do
    let v ← strict b t
    .ok (v :: (← strictItems b rest))

def strictEntries (b : Bindings) : List (String × Term) → Except ValueError (List (String × Json))
  | [] => .ok []
  | (key, t) :: rest => do
    let v ← strict b t
    .ok ((key, v) :: (← strictEntries b rest))

end

mutual

/-- Whether `and` or `or` stands somewhere in a term. -/
def connects : Term → Bool
  | literal _ | var _ | path _ _ => false
  | list items => connectsItems items
  | map entries => connectsEntries entries
  | binary op left right => op == .and || op == .or || left.connects || right.connects
  | not operand => operand.connects
  | filter source _ _ value => source.connects || value.connects

def connectsItems : List Term → Bool
  | [] => false
  | t :: rest => t.connects || connectsItems rest

def connectsEntries : List (String × Term) → Bool
  | [] => false
  | (_, t) :: rest => t.connects || connectsEntries rest

end

/-- An evaluation comes to the values of a stricter one, and under a condition to its errors, too. -/
structure Refines {α : Type} (exact : Prop) (e strict : Except ValueError α) : Prop where
  value : ∀ {a}, strict = .ok a → e = .ok a
  same : exact → e = strict

namespace Refines

variable {α β : Type} {exact : Prop} {e s : Except ValueError α} {f g : α → Except ValueError β}

lemma refl (e : Except ValueError α) : Refines exact e e := ⟨id, fun _ => rfl⟩

lemma bind (h : Refines exact e s) (hf : ∀ a, Refines exact (f a) (g a)) : Refines exact (e >>= f) (s >>= g) := by
  constructor
  · intro b hb
    obtain ⟨a, ha, hb⟩ := Except.bind_eq_ok.1 hb
    exact Except.bind_eq_ok.2 ⟨a, h.value ha, (hf a).value hb⟩
  · intro hexact
    rw [h.same hexact]
    cases s with
    | ok a => exact (hf a).same hexact
    | error _ => rfl

lemma followed (h : Refines exact e s) (f : α → Except ValueError β) : Refines exact (e >>= f) (s >>= f) :=
  h.bind fun a => .refl (f a)

end Refines

lemma refines_connective (hop : op = .and ∨ op = .or) (hleft : ∀ {v}, x = .ok v → eval b left = .ok v)
    (hright : ∀ {v}, y = .ok v → eval b right = .ok v) (h : (do op.apply (← x) (← y)) = .ok v) :
    eval b (binary op left right) = .ok v := by
  obtain ⟨u, hu, h⟩ := Except.bind_eq_ok.1 h
  obtain ⟨w, hw, h⟩ := Except.bind_eq_ok.1 h
  rcases hop with rfl | rfl <;> cases h <;> rw [eval, hleft hu, hright hw] <;> cases hu : u.truthy <;>
    simp [bind, Except.bind, hu]

section Induction

variable (b : Bindings) {exact : Prop}

mutual

theorem refines_strict : ∀ {t : Term}, (exact → t.connects = false) → Refines exact (t.eval b) (t.strict b)
  | literal value, _ | var name, _ | path name keys, _ => .refl _
  | list items, h => by
    rw [eval, strict]
    exact (refines_strictItems h).followed _
  | map entries, h => by
    rw [eval, strict]
    exact (refines_strictEntries h).followed _
  | binary op left right, h => by
    simp only [connects, Bool.or_eq_false_iff] at h
    have hleft := refines_strict (t := left) fun hexact => (h hexact).1.2
    have hright := refines_strict (t := right) fun hexact => (h hexact).2
    rw [strict]
    by_cases hop : op = .and ∨ op = .or
    · refine ⟨refines_connective hop hleft.value hright.value, fun hexact => absurd (h hexact).1.1 ?_⟩
      rcases hop with rfl | rfl <;> decide
    · rw [eval]
      · exact hleft.bind fun x => hright.followed _
      · exact fun heq => hop (.inl heq)
      · exact fun heq => hop (.inr heq)
  | not operand, h => by
    rw [eval, strict]
    exact (refines_strict (t := operand) h).followed _
  | filter source keys op value, h => by
    simp only [connects, Bool.or_eq_false_iff] at h
    rw [eval, strict]
    refine (refines_strict fun hexact => (h hexact).1).bind fun v => ?_
    cases v with
    | arr items => exact (refines_strict fun hexact => (h hexact).2).followed _
    | _ => exact .refl _

theorem refines_strictItems : ∀ {items}, (exact → connectsItems items = false) →
    Refines exact (evalItems b items) (strictItems b items)
  | [], _ => .refl _
  | t :: rest, h => by
    simp only [connectsItems, Bool.or_eq_false_iff] at h
    rw [evalItems, strictItems]
    exact (refines_strict fun hexact => (h hexact).1).bind fun _ =>
      (refines_strictItems fun hexact => (h hexact).2).followed _

theorem refines_strictEntries : ∀ {entries}, (exact → connectsEntries entries = false) →
    Refines exact (evalEntries b entries) (strictEntries b entries)
  | [], _ => .refl _
  | (key, t) :: rest, h => by
    simp only [connectsEntries, Bool.or_eq_false_iff] at h
    rw [evalEntries, strictEntries]
    exact (refines_strict fun hexact => (h hexact).1).bind fun _ =>
      (refines_strictEntries fun hexact => (h hexact).2).followed _

end

end Induction

/-- Where strict evaluation comes to a value, that is the value of the term. Without `and` and `or` the two
agree on errors as well. -/
theorem eval_refines_strict (b : Bindings) (t : Term) :
    (∀ v, t.strict b = .ok v → t.eval b = .ok v) ∧ (t.connects = false → t.eval b = t.strict b) := by
  have h : Refines (t.connects = false) (t.eval b) (t.strict b) := refines_strict b id
  exact ⟨fun _ => h.value, h.same⟩

/-- `$x or true`, which looks at both operands, and a list that has `$y`, which has no value. -/
theorem eval_refines_strict_undefined :
    (binary .or (var "x") (literal (.bool true))).strict { locals := [("x", .null)] } = .ok (.bool true) ∧
    (binary .or (var "x") (literal (.bool true))).eval { locals := [("x", .null)] } = .ok (.bool true) ∧
    (list [var "x", var "y"]).connects = false ∧
    (list [var "x", var "y"]).eval { locals := [("x", .null)] } =
      (list [var "x", var "y"]).strict { locals := [("x", .null)] } :=
  ⟨rfl, (eval_refines_strict _ _).1 _ rfl, rfl, (eval_refines_strict _ _).2 rfl⟩

/-- `false and $x` has a value though `$x` has none. -/
example : (binary .and (literal (.bool false)) (var "x")).eval {} = .ok (.bool false) ∧
    (binary .and (literal (.bool false)) (var "x")).strict {} = .error (.undefined "x") := ⟨rfl, rfl⟩

end Workflow.Term
