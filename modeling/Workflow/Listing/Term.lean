import Workflow.Json.Printer
import Workflow.Program.Basic

/-!
Terms: the expressions of compiled programs. They are the expressions of the source without their
places, with constants as values.
-/

namespace Workflow

/-- An expression of a compiled program. -/
inductive Term where
  | literal (value : Json)
  | var (name : String)
  /-- `$name.a.b` -/
  | path (name : String) (path : List String)
  | list (items : List Term)
  | map (entries : List (String × Term))
  | binary (op : BinOp) (left right : Term)
  | not (operand : Term)
  /-- The items of a list whose property compares with a value. -/
  | filter (list : Term) (path : List String) (op : BinOp) (value : Term)

namespace Term

def joined (mark : String) (parts : List String) : String := mark.intercalate parts

mutual

def display : Term → String
  | literal value => value.render
  | var name => "$" ++ name
  | path name keys => "$" ++ name ++ "." ++ joined "." keys
  | list items => "[" ++ joined ", " (displayItems items) ++ "]"
  | map entries => "\x7b" ++ joined ", " (displayEntries entries) ++ "\x7d"
  | binary op left right =>
    "(" ++ left.display ++ " " ++ op.symbol ++ " " ++ right.display ++ ")"
  | not operand => "(not " ++ operand.display ++ ")"
  | filter items keys op value => "filter(" ++ items.display ++ ", ." ++ joined "." keys ++ " "
      ++ op.symbol ++ " " ++ value.display ++ ")"

def displayItems : List Term → List String
  | [] => []
  | t :: rest => t.display :: displayItems rest

def displayEntries : List (String × Term) → List String
  | [] => []
  | (key, t) :: rest => (key ++ ": " ++ t.display) :: displayEntries rest

end

end Term

/-- The value of a constant; a float that is not a finite number becomes `null`. -/
def Literal.value : Literal → Json
  | string s => .str s
  | int n => .int n
  | float x => .float x
  | bool b => .bool b
  | null => .null

def plainNames (names : List Name) : List String := names.map (·.node)

mutual

def Expr.term : Expr → Term
  | .literal value _ => .literal value.value
  | .var name _ => .var name
  | .property base path _ => .path base.node (plainNames path)
  | .list items _ => .list (Expr.terms items)
  | .map entries _ => .map (Expr.entryTerms entries)
  | .binary op left right _ => .binary op left.term right.term
  | .not operand _ => .not operand.term
  | .filter items keys _ op value _ => .filter items.term (plainNames keys) op value.term

def Expr.terms : List Expr → List Term
  | [] => []
  | e :: rest => e.term :: Expr.terms rest

def Expr.entryTerms : List (Name × Expr) → List (String × Term)
  | [] => []
  | (key, e) :: rest => (key.node, e.term) :: Expr.entryTerms rest

end

end Workflow
