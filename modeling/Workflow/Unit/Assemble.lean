import Workflow.Unit.Basic

/-!
Assembly: from the flat lines of a listing to a compiled unit. The depth of the lines is folded
into blocks, headers must own a block and others must not, and every operation must stand where it
is allowed. Names are taken once.
-/

namespace Workflow

/-- Why a listing is no unit. Every cause has the number of its line. -/
inductive AssemblyError where
  | unexpectedIndent (line : Nat)
  | emptyBlock (line : Nat) (op : String)
  | unexpectedBody (line : Nat) (op : String)
  | misplaced (line : Nat) (op context : String)
  | duplicate (line : Nat) (kind name : String)
  deriving DecidableEq, Repr

def AssemblyError.message : AssemblyError → String
  | unexpectedIndent line => "line " ++ toString line ++ ": unexpected indentation"
  | emptyBlock line op => "line " ++ toString line ++ ": '" ++ op
      ++ "' opens a block but has no body"
  | unexpectedBody line op => "line " ++ toString line ++ ": '" ++ op
      ++ "' cannot own a nested block"
  | misplaced line op context => "line " ++ toString line ++ ": '" ++ op ++ "' is not allowed "
      ++ context
  | duplicate line kind name => "line " ++ toString line ++ ": duplicate " ++ kind ++ " '" ++ name
      ++ "'"

/-- An operation with its line and depth. -/
structure FlatOp where
  line : Nat
  depth : Nat
  op : Op

/-- The operations of a listing, with their line numbers; comments keep theirs. -/
def Listing.flat (lines : Listing) : List FlatOp :=
  lines.zipIdx.filterMap fun (l, n) =>
    match l.content with
    | .op o => some ⟨n + 1, l.depth, o⟩
    | .comment _ => none

namespace Assembly

/-- The first operations of a list that stand deeper than a depth, and the others. -/
def splitDeeper (depth : Nat) : List FlatOp → List FlatOp × List FlatOp
  | [] => ([], [])
  | f :: rest =>
    if depth < f.depth then
      let (inner, outer) := splitDeeper depth rest
      (f :: inner, outer)
    else ([], f :: rest)

theorem splitDeeper_length : ∀ (depth : Nat) (ops : List FlatOp),
    (splitDeeper depth ops).1.length + (splitDeeper depth ops).2.length = ops.length
  | _, [] => rfl
  | depth, f :: rest => by
    have ih := splitDeeper_length depth rest
    unfold splitDeeper
    split
    · simp only [List.length_cons]
      omega
    · simp

/-- The instruction of an operation with its block. -/
def instruction (f : FlatOp) (body : List Instr) : Except AssemblyError Instr :=
  if f.op.isHeader && body.isEmpty then .error (.emptyBlock f.line f.op.mnemonic)
  else if !f.op.isHeader && !body.isEmpty then .error (.unexpectedBody f.line f.op.mnemonic)
  else .ok (.mk f.line f.op body)

/-- Folds operations at a depth or deeper into a block. -/
def fold (depth : Nat) (ops : List FlatOp) : Except AssemblyError (List Instr) :=
  match ops with
  | [] => .ok []
  | f :: rest => do
    if depth < f.depth then .error (.unexpectedIndent f.line)
    else
      let parts := splitDeeper depth rest
      have := splitDeeper_length depth rest
      let body ← fold (depth + 1) parts.1
      let i ← instruction f body
      let others ← fold depth parts.2
      pure (i :: others)
termination_by ops.length
decreasing_by all_goals (simp only [List.length_cons]; omega)

/-- Takes the failure block out of the body of a flow. -/
def splitFailure : List Instr → Except AssemblyError (List Instr × Option (List Instr)) :=
  go none
where
  go (failure : Option (List Instr)) : List Instr → Except AssemblyError (List Instr × Option (List Instr))
    | [] => .ok ([], failure)
    | .mk line .onFailure body :: rest =>
      if failure.isSome then .error (.duplicate line "failure block" "on failure")
      else go (some body) rest
    | i :: rest => do
      let (body, failure) ← go failure rest
      pure (i :: body, failure)

def misplacement? (inMatch afterIf : Bool) (op : Op) : Option String :=
  if op.isRegistration then some "inside a block"
  else
    match op with
    | .flow .. | .handler _ => some "inside a block"
    | .onFailure => some "outside a flow body"
    | .otherwise =>
      if !afterIf then some "without a preceding if"
      else if inMatch then some "inside a match"
      else none
    | .arm _ => if inMatch then none else some "outside a match"
    | _ => if inMatch then some "inside a match" else none

def isBranch : Op → Bool
  | .branch _ => true
  | _ => false

def isSelect : Op → Bool
  | .select _ => true
  | _ => false

/-- Checks that the operations of a block stand where they are allowed. -/
def checkBlock (inMatch afterIf : Bool) : List Instr → Except AssemblyError Unit
  | [] => .ok ()
  | .mk line op body :: rest =>
    match misplacement? inMatch afterIf op with
    | some context => .error (.misplaced line op.mnemonic context)
    | none => do
      checkBlock (isSelect op) false body
      checkBlock inMatch (isBranch op) rest

def enter {α : Type} (table : Table α) (name : String) (entry : α) (kind : String) (line : Nat) :
    Except AssemblyError (Table α) :=
  if table.contains name then .error (.duplicate line kind name) else .ok (table.insert name entry)

def addHandler (handlers : List (HandlerEvent × List Instr)) (event : HandlerEvent)
    (body : List Instr) : List (HandlerEvent × List Instr) :=
  match handlers with
  | [] => [(event, body)]
  | (e, known) :: rest =>
    if e = event then (e, known ++ body) :: rest else (e, known) :: addHandler rest event body

def flowUnit (name : String) (params : List String) (line : Nat) (block : List Instr) :
    Except AssemblyError FlowUnit := do
  let (body, onFailure) ← splitFailure block
  checkBlock false false body
  match onFailure with
  | some failure => checkBlock false false failure
  | none => pure ()
  pure ⟨name, params, line, body, onFailure⟩

/-- Adds an instruction of the top level to a unit. -/
def register (u : CompiledUnit) : Instr → Except AssemblyError CompiledUnit
  | .mk line op body =>
    match op with
    | .model m => do pure { u with models := ← enter u.models m.name m "model" line }
    | .schema s => do pure { u with schemas := ← enter u.schemas s.name s "schema" line }
    | .tool t => do pure { u with tools := ← enter u.tools t.name t "tool" line }
    | .retry r => do pure { u with retries := ← enter u.retries r.name r "retry policy" line }
    | .timeout t => do pure { u with timeouts := ← enter u.timeouts t.name t "timeout policy" line }
    | .guardrail g => do pure { u with guardrails := ← enter u.guardrails g.name g "guardrail" line }
    | .prompt p => do pure { u with prompts := ← enter u.prompts p.name p "prompt" line }
    | .agent a => do pure { u with agents := ← enter u.agents a.name a "agent" line }
    | .flow name params => do
      let f ← flowUnit name params line body
      pure { u with flows := ← enter u.flows name f "flow" line }
    | .handler event => do
      checkBlock false false body
      pure { u with handlers := addHandler u.handlers event body }
    | other => .error (.misplaced line other.mnemonic "at the top level")

end Assembly

def CompiledUnit.assemble (hash : String) (listing : Listing) (sourceMap : SourceMap) :
    Except AssemblyError CompiledUnit := do
  let top ← Assembly.fold 0 listing.flat
  top.foldlM Assembly.register ⟨[], [], [], [], [], [], [], [], [], [], hash, listing, sourceMap⟩

end Workflow
