import Workflow.Json.Printer

/-!
Values at work: truth, text, the name of a type, loose equality, and the way down a path of keys.
Two numbers are loosely equal when they are the same float, so `1` and `1.0` are; lists and
mappings are compared part by part.
-/

namespace Workflow

/-- Why a value could not be had. -/
inductive ValueError where
  | undefined (name : String)
  | missingKey (path key : String)
  | typeMismatch (path expected found : String)
  | operands (op left right : String)
  deriving DecidableEq, Repr

def ValueError.message : ValueError → String
  | undefined name => "variable '$" ++ name ++ "' is not defined"
  | missingKey path key => "'" ++ path ++ "' has no key '" ++ key ++ "'"
  | typeMismatch path expected found => "'" ++ path ++ "' is " ++ found ++ ", expected " ++ expected
  | operands op left right => "cannot apply '" ++ op ++ "' to " ++ left ++ " and " ++ right

namespace Json

def typeName : Json → String
  | null => "null"
  | bool _ => "a bool"
  | num _ => "a number"
  | str _ => "a string"
  | arr _ => "a list"
  | obj _ => "a mapping"

/-- The text of a value in messages and templates: a string as it is, nothing for `null`, and the
compact form of the rest. -/
def plainText : Json → String
  | str s => s
  | null => ""
  | v => v.render

/-- Whether a value counts as true: zero and all that is empty does not. -/
def truthy : Json → Bool
  | null => false
  | bool b => b
  | num n => n.toFloat != 0
  | str s => s != ""
  | arr items => !items.isEmpty
  | obj fields => !fields.isEmpty

mutual

/-- Equality that takes numbers for the floats nearest to them. -/
def looselyEqual : Json → Json → Bool
  | null, null => true
  | bool a, bool b => a == b
  | num a, num b => a.toFloat == b.toFloat
  | str a, str b => a == b
  | arr a, arr b => itemsEqual a b
  | obj a, obj b => a.length == b.length && fieldsEqual a b
  | _, _ => false

def itemsEqual : List Json → List Json → Bool
  | [], [] => true
  | a :: as, b :: bs => a.looselyEqual b && itemsEqual as bs
  | _, _ => false

def fieldsEqual : List (String × Json) → List (String × Json) → Bool
  | [], _ => true
  | (k, a) :: rest, others =>
    (match Table.get? others k with
      | some b => a.looselyEqual b
      | none => false) && fieldsEqual rest others

end

/-- The value at the end of a path of keys; `place` is the text of the way so far. -/
def lookup (place : String) : Json → List String → Except ValueError Json
  | v, [] => .ok v
  | obj fields, key :: path =>
    match Table.get? fields key with
    | some v => lookup (place ++ "." ++ key) v path
    | none => .error (.missingKey place key)
  | v, _ :: _ => .error (.typeMismatch place "a mapping" v.typeName)

/-- The value at the end of a path of keys, where strings and lists have a `length`. -/
def property? : Json → List String → Option Json
  | v, [] => some v
  | obj fields, key :: path => (Table.get? fields key).bind fun v => v.property? path
  | str s, key :: path => if key = "length" then (nat s.length).property? path else none
  | arr items, key :: path => if key = "length" then (nat items.length).property? path else none
  | _, _ :: _ => none

/-- Puts a value at the end of a path of keys. All keys but the last are there already. -/
def assign (place : String) (new : Json) : Json → List String → Except ValueError Json
  | _, [] => .ok new
  | obj fields, [key] => .ok (obj (Table.insert fields key new))
  | obj fields, key :: path =>
    match Table.get? fields key with
    | some v => do
      let changed ← assign (place ++ "." ++ key) new v path
      .ok (obj (Table.insert fields key changed))
    | none => .error (.missingKey place key)
  | v, _ :: _ => .error (.typeMismatch place "a mapping" v.typeName)

end Json

end Workflow
