import Workflow.Listing.Term
import Workflow.Text.Normal
import Workflow.Text.Part
import Workflow.Value.Bindings

/-!
The value of a term. `and` and `or` look at their second operand only when the first one does not
decide; every other operator takes two values and is `BinOp.apply`.
-/

namespace Workflow

namespace BinOp

/-- The operator does not take values of these types. -/
def refuse (op : BinOp) (left right : Json) : ValueError :=
  .operands op.symbol left.typeName right.typeName

def compare (op : BinOp) : Json → Json → Except ValueError Ordering
  | .num a, .num b =>
    let x := a.toFloat
    let y := b.toFloat
    if x < y then .ok .lt else if x == y then .ok .eq else if y < x then .ok .gt
    else .error (op.refuse (.num a) (.num b))
  | .str a, .str b => .ok (if a < b then .lt else if a = b then .eq else .gt)
  | left, right => .error (op.refuse left right)

def holds (op : BinOp) : Json → Json → Except ValueError Bool
  | .str s, v => .ok (Text.hasPart s.toList v.plainText.toList)
  | .arr items, v => .ok (items.any fun item => item.looselyEqual v)
  | .obj fields, .str key => .ok (Table.contains fields key)
  | left, right => .error (op.refuse left right)

/-- An integer if it is a signed one of 64 bits, else a float. -/
def exactOr (exact : Int → Int → Int) (inexact : Float → Float → Float) (a b : Number) : Json :=
  let rounded := Json.float (inexact a.toFloat b.toFloat)
  match a.signed?, b.signed? with
  | some m, some n =>
    let r := exact m n
    if Number.minSigned ≤ r ∧ r ≤ Number.maxSigned then .int r else rounded
  | _, _ => rounded

def plus : Json → Json → Except ValueError Json
  | .num a, .num b => .ok (exactOr (· + ·) (· + ·) a b)
  | .str s, v => .ok (.str (s ++ v.plainText))
  | .arr a, .arr b => .ok (.arr (a ++ b))
  | left, right => .error (add.refuse left right)

def minus : Json → Json → Except ValueError Json
  | .num a, .num b => .ok (exactOr (· - ·) (· - ·) a b)
  | left, right => .error (sub.refuse left right)

def apply (op : BinOp) (left right : Json) : Except ValueError Json :=
  match op with
  | eq => .ok (.bool (left.looselyEqual right))
  | notEq => .ok (.bool (!left.looselyEqual right))
  | lt => (op.compare left right).map fun o => .bool (o == .lt)
  | ltEq => (op.compare left right).map fun o => .bool (o != .gt)
  | gt => (op.compare left right).map fun o => .bool (o == .gt)
  | gtEq => (op.compare left right).map fun o => .bool (o != .lt)
  | similar => .ok (.bool (Text.similar left.plainText right.plainText))
  | contains => (op.holds left right).map .bool
  | and => .ok (.bool (left.truthy && right.truthy))
  | or => .ok (.bool (left.truthy || right.truthy))
  | add => plus left right
  | sub => minus left right

end BinOp

namespace Term

/-- The items whose property compares with a value; items without the property do not count. -/
def keep (path : List String) (op : BinOp) (wanted : Json) : List Json → Except ValueError (List Json)
  | [] => .ok []
  | item :: rest =>
    match item.property? path with
    | none => keep path op wanted rest
    | some field => do
      let verdict ← op.apply field wanted
      let others ← keep path op wanted rest
      .ok (if verdict.truthy then item :: others else others)

mutual

def eval (b : Bindings) : Term → Except ValueError Json
  | literal value => .ok value
  | var name => b.get name
  | path name keys => b.getPath name keys
  | list items => do .ok (.arr (← evalItems b items))
  | map entries => do .ok (.obj (Table.ofList (← evalEntries b entries)))
  | binary .and left right => do
    if (← eval b left).truthy then .ok (.bool (← eval b right).truthy) else .ok (.bool false)
  | binary .or left right => do
    if (← eval b left).truthy then .ok (.bool true) else .ok (.bool (← eval b right).truthy)
  | binary op left right => do
    let x ← eval b left
    let y ← eval b right
    op.apply x y
  | not operand => do .ok (.bool (!(← eval b operand).truthy))
  | filter source keys op value => do
    match ← eval b source with
    | .arr items =>
      let wanted ← eval b value
      .ok (.arr (← keep keys op wanted items))
    | other => .error (.typeMismatch source.display "a list" other.typeName)

def evalItems (b : Bindings) : List Term → Except ValueError (List Json)
  | [] => .ok []
  | t :: rest => do
    let v ← eval b t
    .ok (v :: (← evalItems b rest))

def evalEntries (b : Bindings) : List (String × Term) → Except ValueError (List (String × Json))
  | [] => .ok []
  | (key, t) :: rest => do
    let v ← eval b t
    .ok ((key, v) :: (← evalEntries b rest))

end

end Term

end Workflow
