import Workflow.Table

/-!
JSON values, the dynamic values of workflow variables. A number is an integer or a binary floating
point number, and the two never mix: `1` and `1.0` are different values. An object lists its fields
in the order in which they are written; the objects that workflows compute with keep their fields
as a `Table`.
-/

namespace Workflow

/-- A JSON number. Integers lie between `-2^63` and `2^64 - 1`; floats are finite. -/
inductive Number where
  | int (n : Int)
  | float (x : Float)
  deriving Repr

namespace Number

def minSigned : Int := -0x8000000000000000

def maxSigned : Int := 0x7fffffffffffffff

def maxUnsigned : Int := 0xffffffffffffffff

def toFloat : Number → Float
  | int n => .ofModel (.ofInt n)
  | float x => x

def signed? : Number → Option Int
  | int n => if minSigned ≤ n ∧ n ≤ maxSigned then some n else none
  | float _ => none

def unsigned? : Number → Option Nat
  | int n => if 0 ≤ n ∧ n ≤ maxUnsigned then some n.toNat else none
  | float _ => none

end Number

/-- A JSON value. -/
inductive Json where
  | null
  | bool (b : Bool)
  | num (n : Number)
  | str (s : String)
  | arr (items : List Json)
  | obj (fields : List (String × Json))
  deriving Inhabited

namespace Json

def int (n : Int) : Json := num (.int n)

def nat (n : Nat) : Json := int n

/-- A float as a value; what is not a finite number becomes `null`. -/
def float (x : Float) : Json := if x.isFinite then num (.float x) else null

def strs (items : List String) : Json := arr (items.map str)

/-- An optional value, `null` where it is missing. -/
def orNull {α : Type} (encode : α → Json) : Option α → Json
  | some a => encode a
  | none => null

/-- The field of an object; of a repeated field the last one counts. -/
def field? (v : Json) (name : String) : Option Json :=
  match v with
  | obj fields => (fields.reverse.find? fun f => f.1 = name).map (·.2)
  | _ => none

/-- The field of an object, where a field that is `null` counts as missing. -/
def given? (v : Json) (name : String) : Option Json :=
  match v.field? name with
  | some null => none
  | other => other

def string? : Json → Option String
  | str s => some s
  | _ => none

def bool? : Json → Option Bool
  | bool b => some b
  | _ => none

def items? : Json → Option (List Json)
  | arr items => some items
  | _ => none

def nat? : Json → Option Nat
  | num n => n.unsigned?
  | _ => none

def fields? : Json → Option (List (String × Json))
  | obj fields => some fields
  | _ => none

def strings? (v : Json) : Option (List String) := do (← v.items?).mapM string?

mutual

/-- The value with all objects as tables: their fields in increasing order, of repeated ones the
last. -/
def merged : Json → Json
  | arr items => arr (mergedItems items)
  | obj fields => obj (Table.ofList (mergedFields fields))
  | v => v

def mergedItems : List Json → List Json
  | [] => []
  | v :: rest => v.merged :: mergedItems rest

def mergedFields : List (String × Json) → List (String × Json)
  | [] => []
  | (k, v) :: rest => (k, v.merged) :: mergedFields rest

end

end Json

end Workflow
