import Workflow.Proofs.Assembly

/-!
Assembly without its checks. Assembly recurses on how large blocks are, which the kernel does not evaluate. With
a bound on the number of lines the fold does evaluate, and the unit can be told.
-/

namespace Workflow

namespace Assembly

/-- Folds operations at a depth or deeper into a block, as long as there are at most so many. -/
def foldWithin : Nat → Nat → List FlatOp → Except AssemblyError (List Instr)
  | 0, _, _ => .ok []
  | _ + 1, _, [] => .ok []
  | bound + 1, depth, f :: rest => do
    if depth < f.depth then .error (.unexpectedIndent f.line)
    else
      let parts := splitDeeper depth rest
      let body ← foldWithin bound (depth + 1) parts.1
      let i ← instruction f body
      let others ← foldWithin bound depth parts.2
      pure (i :: others)

lemma foldWithin_eq : ∀ {bound depth} {ops : List FlatOp}, ops.length ≤ bound →
    foldWithin bound depth ops = fold depth ops
  | 0, depth, [], _ | bound + 1, depth, [], _ => by rw [foldWithin, fold]
  | bound + 1, depth, f :: rest, h => by
    have hlength := splitDeeper_length depth rest
    rw [List.length_cons] at h
    rw [foldWithin, fold]
    dsimp only
    rw [foldWithin_eq (by omega), foldWithin_eq (by omega)]

/-- A unit with one more instruction of the top level, which may stand there. -/
def enrol (u : CompiledUnit) : Instr → CompiledUnit
  | .mk line op body =>
    match op with
    | .model m => { u with models := u.models.insert m.name m }
    | .schema s => { u with schemas := u.schemas.insert s.name s }
    | .tool t => { u with tools := u.tools.insert t.name t }
    | .retry r => { u with retries := u.retries.insert r.name r }
    | .timeout t => { u with timeouts := u.timeouts.insert t.name t }
    | .guardrail g => { u with guardrails := u.guardrails.insert g.name g }
    | .prompt p => { u with prompts := u.prompts.insert p.name p }
    | .agent a => { u with agents := u.agents.insert a.name a }
    | .flow name params =>
      match splitFailure body with
      | .ok (body, failure) => { u with flows := u.flows.insert name ⟨name, params, line, body, failure⟩ }
      | .error _ => u
    | .handler event => { u with handlers := addHandler u.handlers event body }
    | _ => u

lemma eq_insert_of_enter {α : Type} {t t' : Table α} {name kind : String} {a : α} {line : Nat}
    (h : enter t name a kind line = .ok t') : t' = t.insert name a := by
  unfold enter at h
  split at h
  · cases h
  · cases h
    rfl

lemma eq_enrol_of_register {u v : CompiledUnit} {i : Instr} (h : register u i = .ok v) : v = enrol u i := by
  obtain ⟨line, op, body⟩ := i
  unfold register at h
  cases op with
  | model | schema | tool | retry | timeout | guardrail | prompt | agent =>
    obtain ⟨t, ht, h⟩ := Except.bind_eq_ok.1 h
    cases h
    rw [eq_insert_of_enter ht]
    rfl
  | flow name params =>
    obtain ⟨f, hf, h⟩ := Except.bind_eq_ok.1 h
    obtain ⟨t, ht, h⟩ := Except.bind_eq_ok.1 h
    cases h
    obtain ⟨⟨block, failure⟩, hsplit, hf⟩ := Except.bind_eq_ok.1 hf
    obtain ⟨-, -, hf⟩ := Except.bind_eq_ok.1 hf
    have hflow : f = ⟨name, params, line, block, failure⟩ := by
      cases failure with
      | none =>
        cases hf
        rfl
      | some failure =>
        obtain ⟨_, _, hf⟩ := Except.bind_eq_ok.1 hf
        cases hf
        rfl
    rw [eq_insert_of_enter ht, hflow, enrol, hsplit]
  | handler event =>
    obtain ⟨-, -, h⟩ := Except.bind_eq_ok.1 h
    cases h
    rfl
  | _ => cases h

lemma foldl_enrol_of_register : ∀ {is : List Instr} {u v}, is.foldlM register u = .ok v → is.foldl enrol u = v
  | [], u, v, h => by
    cases h
    rfl
  | i :: rest, u, v, h => by
    rw [List.foldlM_cons] at h
    obtain ⟨w, hw, h⟩ := Except.bind_eq_ok.1 h
    rw [List.foldl_cons, ← eq_enrol_of_register hw]
    exact foldl_enrol_of_register h

end Assembly

end Workflow
